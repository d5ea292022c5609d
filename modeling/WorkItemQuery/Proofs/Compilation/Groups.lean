/-
Groups of clauses. A clause is balanced if it closes each group that it opens, closes no other, and has
its operators inside of groups. The walk keeps one pending clause for a whole expression, and a table, a
filter or an order cuts it off wherever it stands. So the clauses of a statement are balanced exactly
when each clause ends in the operand in which it began, which can be seen from the expression alone.
-/
import WorkItemQuery.Proofs.Compilation.Visits
import WorkItemQuery.Proofs.Number.Digits

namespace WorkItemQuery

open Compilation Number Walk

/-! ## Balance -/

/-- The texts of the operators that make a group. -/
def operatorTexts : List String :=
  [BinaryOp.and, .or, .equal, .notEqual, .lessThan, .lessThanOrEqual, .greaterThan, .greaterThanOrEqual].filterMap
      binaryText? ++
    [DomainOp.isIn, .under, .wasEver, .contains, .inGroup, .notInGroup].map domainText

/-- What matters of a fragment for groups. -/
inductive Mark where
  | opens
  | closes
  | operator
deriving DecidableEq

mutual

/-- The marks of a fragment. -/
def Fragment.marks : Fragment → List Mark
  | .groupOpen => [.opens]
  | .groupClose => [.closes]
  | .literal text => if text ∈ operatorTexts then [.operator] else []
  | .compound parts => Fragment.marksAll parts
  | .constant _ | .timestamp _ | .numberList _ | .stringList _ | .field _ => []

def Fragment.marksAll : List Fragment → List Mark
  | [] => []
  | f :: rest => f.marks ++ Fragment.marksAll rest

end

/-- The number of groups that are open after some marks. -/
def depth (ms : List Mark) : Int := ms.count .opens - ms.count .closes

/-- The depth is never negative and zero at the end, and it is not zero at an operator. -/
structure Balanced (ms : List Mark) : Prop where
  nonnegative : ∀ before rest, ms = before ++ rest → 0 ≤ depth before
  zero : depth ms = 0
  operators : ∀ before rest, ms = before ++ .operator :: rest → 1 ≤ depth before

/-- The depth after some marks, from a given depth. There is none if a group is closed that was not opened,
or if an operator stands outside of groups. -/
def level : Nat → List Mark → Option Nat
  | d, [] => some d
  | d, .opens :: ms => level (d + 1) ms
  | d + 1, .closes :: ms => level d ms
  | d + 1, .operator :: ms => level (d + 1) ms
  | 0, .closes :: _ | 0, .operator :: _ => none

@[simp] theorem depth_nil : depth [] = 0 := rfl

@[simp] theorem depth_opens (ms : List Mark) : depth (.opens :: ms) = depth ms + 1 := by
  simp [depth]; omega

@[simp] theorem depth_closes (ms : List Mark) : depth (.closes :: ms) = depth ms - 1 := by
  simp [depth]; omega

@[simp] theorem depth_operator (ms : List Mark) : depth (.operator :: ms) = depth ms := by
  simp [depth]

theorem forall_split_cons {P : List Mark → Prop} {m : Mark} {ms : List Mark} :
    (∀ before rest, m :: ms = before ++ rest → P before) ↔
      P [] ∧ ∀ before rest, ms = before ++ rest → P (m :: before) := by
  constructor
  · intro h
    exact ⟨h [] _ rfl, fun before rest heq => h (m :: before) rest (by rw [heq, List.cons_append])⟩
  · rintro ⟨hnil, hcons⟩ (_ | ⟨n, before⟩) rest heq
    · exact hnil
    · obtain ⟨rfl, htail⟩ := List.cons.inj heq
      exact hcons before rest htail

theorem forall_operator_cons {P : List Mark → Prop} {m : Mark} {ms : List Mark} :
    (∀ before rest, m :: ms = before ++ .operator :: rest → P before) ↔
      (m = .operator → P []) ∧ ∀ before rest, ms = before ++ .operator :: rest → P (m :: before) := by
  constructor
  · intro h
    exact ⟨fun hm => h [] ms (by rw [hm, List.nil_append]),
      fun before rest heq => h (m :: before) rest (by rw [heq, List.cons_append])⟩
  · rintro ⟨hnil, hcons⟩ (_ | ⟨n, before⟩) rest heq
    · exact hnil (List.cons.inj heq).1
    · obtain ⟨rfl, htail⟩ := List.cons.inj heq
      exact hcons before rest htail

/-- A level says that the depth stays in bounds, and what it is at the end. -/
theorem level_eq_some {ms : List Mark} : ∀ {d e : Nat}, level d ms = some e ↔
    (∀ before rest, ms = before ++ rest → 0 ≤ d + depth before) ∧ d + depth ms = e ∧
      ∀ before rest, ms = before ++ .operator :: rest → 1 ≤ d + depth before := by
  induction ms with
  | nil =>
    intro d e
    rw [level, Option.some.injEq, depth_nil, Int.add_zero, Int.ofNat_inj]
    refine ⟨fun h => ⟨?_, h, ?_⟩, fun h => h.2.1⟩
    · intro before rest hnil
      obtain ⟨rfl, -⟩ := List.append_eq_nil_iff.1 hnil.symm
      exact Int.natCast_nonneg d
    · intro before rest hnil
      exact absurd hnil.symm (by simp)
  | cons m ms ih =>
    intro d e
    rw [forall_split_cons, forall_operator_cons]
    have hstart : 0 ≤ d + depth [] := by simp
    cases m with
    | opens =>
      have hdepth : ∀ before, d + depth (.opens :: before) = (d + 1 : Nat) + depth before := by
        intro before; rw [depth_opens]; omega
      rw [level, ih]
      simp only [hdepth]
      exact ⟨fun ⟨h, hend, hop⟩ => ⟨⟨hstart, h⟩, hend, by simp, hop⟩, fun ⟨h, hend, hop⟩ => ⟨h.2, hend, hop.2⟩⟩
    | closes =>
      cases d with
      | zero =>
        rw [level]
        refine iff_of_false (by simp) fun h => ?_
        have hfirst := h.1.2 [] ms rfl
        simp at hfirst
      | succ d =>
        have hdepth : ∀ before, (d + 1 : Nat) + depth (.closes :: before) = d + depth before := by
          intro before; rw [depth_closes]; omega
        rw [level, ih]
        simp only [hdepth]
        exact ⟨fun ⟨h, hend, hop⟩ => ⟨⟨hstart, h⟩, hend, by simp, hop⟩, fun ⟨h, hend, hop⟩ => ⟨h.2, hend, hop.2⟩⟩
    | operator =>
      cases d with
      | zero =>
        rw [level]
        refine iff_of_false (by simp) fun h => ?_
        have hfirst := h.2.2.1 rfl
        simp at hfirst
      | succ d =>
        have hinside : 1 ≤ (d + 1 : Nat) + depth [] := by rw [depth_nil]; omega
        rw [level, ih]
        simp only [depth_operator]
        exact ⟨fun ⟨h, hend, hop⟩ => ⟨⟨hstart, h⟩, hend, fun _ => hinside, hop⟩,
          fun ⟨h, hend, hop⟩ => ⟨h.2, hend, hop.2⟩⟩

theorem balanced_iff {ms : List Mark} : Balanced ms ↔ level 0 ms = some 0 := by
  rw [level_eq_some]
  simp only [Int.ofNat_zero, Int.zero_add]
  exact ⟨fun h => ⟨h.nonnegative, h.zero, h.operators⟩, fun h => ⟨h.1, h.2.1, h.2.2⟩⟩

instance (ms : List Mark) : Decidable (Balanced ms) := decidable_of_iff _ balanced_iff.symm

theorem level_append (ms ns : List Mark) (d : Nat) : level d (ms ++ ns) = (level d ms).bind (level · ns) := by
  fun_induction level d ms with
  | case1 d => rfl
  | case2 d ms ih => rw [List.cons_append, level, ih]
  | case3 d ms ih => rw [List.cons_append, level, ih]
  | case4 d ms ih => rw [List.cons_append, level, ih]
  | case5 ms => rfl
  | case6 ms => rfl

theorem marksAll_append : ∀ parts more : List Fragment,
    Fragment.marksAll (parts ++ more) = Fragment.marksAll parts ++ Fragment.marksAll more
  | [], more => by rw [List.nil_append, Fragment.marksAll, List.nil_append]
  | f :: parts, more => by
    rw [List.cons_append, Fragment.marksAll, Fragment.marksAll, marksAll_append parts more, List.append_assoc]

/-! ## Literals -/

theorem binaryText_mem {op : BinaryOp} {text : String} (h : binaryText? op = some text) : text ∈ operatorTexts := by
  cases op <;> cases h <;> decide

theorem domainText_mem (op : DomainOp) : domainText op ∈ operatorTexts := by
  cases op <;> decide

/-- An operator has blanks around it, which a number has not. -/
theorem blank_of_operator {text : String} (h : text ∈ operatorTexts) : ' ' ∈ text.toList := by
  have hall : ∀ text ∈ operatorTexts, ' ' ∈ text.toList := by decide
  exact hall text h

theorem digit_ne_blank {n : Nat} : ' ' ∉ digitsOf n := by
  intro h
  exact absurd (isDigit_of_mem_digitsOf h) (by decide)

theorem intText_not_mem (i : Int) : intText i ∉ operatorTexts := by
  intro h
  have hblank := blank_of_operator h
  unfold intText at hblank
  split at hblank
  · simp [digit_ne_blank] at hblank
  · simp [digit_ne_blank] at hblank

theorem blank_not_mem_positional (d : Decimal) : ' ' ∉ d.positional.toList := by
  have hzeros : ∀ n : Nat, ' ' ∉ List.replicate n '0' := by
    intro n h
    exact absurd (List.eq_of_mem_replicate h) (by decide)
  have hfull : ∀ n : Nat, ' ' ∉ List.replicate n '0' ++ digitsOf d.digits := by
    intro n h
    rcases List.mem_append.1 h with h | h
    · exact hzeros n h
    · exact digit_ne_blank h
  have hbody : ∀ body : List Char, ' ' ∉ body → ' ' ∉ (if d.negative then '-' :: body else body) := by
    intro body h
    split
    · simp [h]
    · exact h
  unfold Decimal.positional
  rw [String.toList_ofList]
  refine hbody _ ?_
  split
  · simp [digit_ne_blank, hzeros]
  · intro h
    rcases List.mem_append.1 h with h | h
    · exact hfull _ (List.mem_of_mem_take h)
    · rcases List.mem_cons.1 h with h | h
      · cases h
      · exact hfull _ (List.mem_of_mem_drop h)

/-- A constant has no marks. -/
theorem marks_constantFragment {k : Constant} {f : Fragment} (h : constantFragment? k = some f) : f.marks = [] := by
  have hint : ∀ i : Int, (Fragment.literal (intText i)).marks = [] := fun i => by
    rw [Fragment.marks, if_neg (intText_not_mem i)]
  cases k with
  | double v =>
    rw [constantFragment?] at h
    split at h
    · rename_i hfinite
      cases h
      have htext : v.text = v.shortest.positional := if_pos hfinite
      rw [Fragment.marks, if_neg fun hmem => blank_not_mem_positional _ (htext ▸ blank_of_operator hmem)]
    · cases h
  | intList vs =>
    rw [constantFragment?] at h
    split at h <;> cases h
    rfl
  | stringList vs =>
    rw [constantFragment?] at h
    split at h <;> cases h
    rfl
  | int16 v | int32 v | int64 v => cases h; exact hint _
  | null | string _ | timestamp _ => cases h; rfl
  | table _ | bool _ | foreign _ _ => cases h

/-! ## Where clauses begin and end -/

/-- Where the clause began that is pending after an expression. -/
inductive Origin where
  /-- Before the expression. -/
  | before
  /-- In the expression, outside of its groups. -/
  | outside
  /-- In a group of the expression. -/
  | inside

namespace Origin

/-- The origin after two expressions. -/
def andThen : Origin → Origin → Origin
  | first, before => first
  | _, outside => outside
  | _, inside => inside

/-- The origin after a group. -/
def grouped : Origin → Origin
  | before => before
  | outside | inside => inside

/-- Whether the pending clause began in the operand that the expression stands in, given whether the clause
before it did. -/
def isHere (here : Bool) : Origin → Bool
  | before => here
  | outside => true
  | inside => false

end Origin

namespace Expr

mutual

/-- Where the clause began that is pending after an expression. Tables begin a clause, filters and orders end
one. -/
def origin : Expr → Origin
  | .constant (.table _) | .filter _ _ | .order _ _ _ => .outside
  | .domain _ left right | .binary _ left right => (left.origin.andThen right.origin).grouped
  | .select source _ | .asOf source _ => source.origin
  | .unary _ operand => operand.origin
  | .member target _ => if isItem target then .before else target.origin
  | .lambda _ body => body.origin
  | .call _ arguments => originAll arguments
  | .constant _ | .indexer _ | .parameter _ => .before

def originAll : List Expr → Origin
  | [] => .before
  | e :: rest => e.origin.andThen (originAll rest)

end

mutual

/-- Whether each clause that ends in an expression began in the operand in which it ends, given whether the
clause that is pending before the expression did. -/
def keepsGroups : Expr → Bool → Bool
  | .filter source e, here | .order source e _, here =>
    source.keepsGroups here &&
      (e.keepsGroups (source.origin.isHere here) && e.origin.isHere (source.origin.isHere here))
  | .domain _ left right, _ | .binary _ left right, _ => left.keepsGroups false && right.keepsGroups false
  | .select source _, here | .asOf source _, here => source.keepsGroups here
  | .unary _ operand, here => operand.keepsGroups here
  | .member target _, here => isItem target || target.keepsGroups here
  | .lambda _ body, here => body.keepsGroups here
  | .call _ arguments, here => keepsGroupsAll arguments here
  | .constant _, _ | .indexer _, _ | .parameter _, _ => true

def keepsGroupsAll : List Expr → Bool → Bool
  | [], _ => true
  | e :: rest, here => e.keepsGroups here && keepsGroupsAll rest (e.origin.isHere here)

end

end Expr

/-! ## What a walk does to groups -/

/-- All clauses of a statement are balanced. -/
def Statement.HasBalancedClauses (q : Statement) : Prop := ∀ clause ∈ q.filters ++ q.orders, Balanced clause.marks

namespace Compilation

variable {σ : Type}

/-- The level of the pending clause. -/
def State.level (s : State σ) : Option Nat := WorkItemQuery.level 0 (Fragment.marksAll s.pending)

/-- The level after an expression. A clause that began in a group of it has already closed that group. -/
def levelAfter (d : Option Nat) : Origin → Option Nat
  | .before => d
  | .outside => some 0
  | .inside => none

theorem isHere_levelAfter (d : Option Nat) (o : Origin) : (levelAfter d o == some 0) = o.isHere (d == some 0) := by
  cases o <;> rfl

/-- How a walk over an expression changes the level of the pending clause, and when all clauses are still
balanced after it. -/
structure Balances (o : Origin) (keeps : Bool → Bool) (s s' : State σ) : Prop where
  level : s'.level = levelAfter s.level o
  balanced : s'.statement.HasBalancedClauses ↔
    s.statement.HasBalancedClauses ∧ keeps (s.level == some 0) = true

theorem level_push (s : State σ) (f : Fragment) :
    (s.push f).level = s.level.bind (WorkItemQuery.level · f.marks) := by
  unfold State.level State.push
  rw [marksAll_append, level_append, Fragment.marksAll, Fragment.marksAll, List.append_nil]

namespace Balances

variable {o o' : Origin} {keeps keeps' : Bool → Bool} {s mid s' : State σ}

/-- The pending clause and the clauses of the statement stay as they are. -/
theorem quiet (hpending : s'.pending = s.pending) (hfilters : s'.statement.filters = s.statement.filters)
    (horders : s'.statement.orders = s.statement.orders) : Balances .before (fun _ => true) s s' where
  level := by rw [State.level, hpending]; rfl
  balanced := by
    rw [Statement.HasBalancedClauses, hfilters, horders]
    exact ⟨fun hall => ⟨hall, rfl⟩, fun hall => hall.1⟩

theorem andThen (h : Balances o keeps s mid) (h' : Balances o' keeps' mid s') :
    Balances (o.andThen o') (fun here => keeps here && keeps' (o.isHere here)) s s' where
  level := by
    rw [h'.level, h.level]
    cases o' <;> rfl
  balanced := by rw [h'.balanced, h.balanced, h.level, isHere_levelAfter, Bool.and_eq_true, and_assoc]

theorem thenQuiet (h : Balances o keeps s mid) (hpending : s'.pending = mid.pending)
    (hfilters : s'.statement.filters = mid.statement.filters) (horders : s'.statement.orders = mid.statement.orders) :
    Balances o keeps s s' := by
  have hboth := h.andThen (quiet hpending hfilters horders)
  simpa [Origin.andThen] using hboth

/-- A fragment without marks. -/
theorem push {f : Fragment} (hf : f.marks = []) (s : State σ) : Balances .before (fun _ => true) s (s.push f) where
  level := by
    rw [level_push, hf]
    cases s.level <;> rfl
  balanced := ⟨fun hall => ⟨hall, rfl⟩, fun hall => hall.1⟩

theorem pushThen {f : Fragment} (hf : f.marks = []) (h : Balances o keeps (s.push f) s') : Balances o keeps s s' := by
  have hboth := (push hf s).andThen h
  cases o <;> exact hboth

theorem reset (s : State σ) : Balances .outside (fun _ => true) s { s with pending := [] } :=
  ⟨rfl, fun hall => ⟨hall, rfl⟩, fun hall => hall.1⟩

/-- Ending a clause keeps the clauses balanced if the clause is. -/
theorem ended (hpending : s'.pending = []) (hclauses : s'.statement.HasBalancedClauses ↔
    s.statement.HasBalancedClauses ∧ ∀ clause ∈ clauseOf s.pending, Balanced clause.marks) :
    Balances .outside (fun here => here) s s' where
  level := by rw [State.level, hpending]; rfl
  balanced := by
    rw [hclauses, beq_iff_eq, State.level]
    rcases s.pending with _ | ⟨f, parts⟩
    · -- nothing is pending, and nothing is added
      simp [clauseOf, Fragment.marksAll, WorkItemQuery.level]
    · simp [clauseOf, balanced_iff, Fragment.marks]

theorem filtered (s : State σ) : Balances .outside (fun here => here) s s.filtered := by
  refine ended rfl ?_
  simp only [State.filtered, Statement.HasBalancedClauses, List.forall_mem_append]
  exact and_right_comm

theorem ordered (s : State σ) : Balances .outside (fun here => here) s s.ordered := by
  refine ended rfl ?_
  simp only [State.ordered, Statement.HasBalancedClauses, List.forall_mem_append]
  exact and_assoc.symm

/-- Inside of a group the pending clause did not begin in the operand, on either side of the operator. -/
theorem group {text : String} (htext : text ∈ operatorTexts) (hl : Balances o keeps (s.push .groupOpen) mid)
    (hr : Balances o' keeps' (mid.push (.literal text)) s') :
    Balances (o.andThen o').grouped (fun _ => keeps false && keeps' false) s (s'.push .groupClose) := by
  -- the parenthesis and the operator leave no level zero behind
  have hopened : (s.push .groupOpen).level = s.level.map (· + 1) := by
    rw [level_push]
    cases s.level <;> rfl
  have hoperated : (mid.push (.literal text)).level = mid.level.bind (WorkItemQuery.level · [.operator]) := by
    rw [level_push, Fragment.marks, if_pos htext]
  have hleftHere : ((s.push .groupOpen).level == some 0) = false := by
    rw [hopened]
    cases s.level <;> rfl
  have hrightHere : ((mid.push (.literal text)).level == some 0) = false := by
    rw [hoperated]
    rcases mid.level with _ | _ | d <;> rfl
  have hstart : (s.push .groupOpen).statement = s.statement := rfl
  have hmid : (mid.push (.literal text)).statement = mid.statement := rfl
  constructor
  · rw [level_push, hr.level, hoperated, hl.level, hopened]
    cases o <;> cases o' <;> cases s.level <;> rfl
  · show s'.statement.HasBalancedClauses ↔ _
    rw [hr.balanced, hrightHere, hmid, hl.balanced, hleftHere, hstart, Bool.and_eq_true, and_assoc]

end Balances

theorem marks_direction {direction : Direction} {text : String} (h : directionText? direction = some text) :
    (Fragment.literal text).marks = [] := by
  cases direction <;> cases h <;> decide

theorem origin_reads {e : Expr} {key : String} (h : Reads e key) :
    e.origin = .before ∧ e.keepsGroups = fun _ => true := by
  cases h with
  | member hitem => exact ⟨by rw [Expr.origin, hitem]; rfl, by funext here; rw [Expr.keepsGroups, hitem, Bool.true_or]⟩
  | indexer => exact ⟨rfl, rfl⟩

theorem origin_value {target : Expr} (h : isItem target = false) (name : String) :
    (Expr.member target name).origin = target.origin ∧ (Expr.member target name).keepsGroups = target.keepsGroups :=
  ⟨by rw [Expr.origin, h]; rfl, by funext here; rw [Expr.keepsGroups, h, Bool.false_or]⟩

/-- Only a table begins a clause, and a table has no fragment. -/
theorem origin_constant {k : Constant} {f : Fragment} (h : constantFragment? k = some f) :
    (Expr.constant k).origin = .before ∧ (Expr.constant k).keepsGroups = fun _ => true := by
  cases k with
  | table entity => cases h
  | _ => exact ⟨rfl, rfl⟩

/-- The walk over an expression, by its rules. -/
theorem balances_of_visits {mapper : FieldMapper σ} {root : Option String} {e : Expr} {s s' : State σ}
    (h : Visits mapper root e s s') : Balances e.origin e.keepsGroups s s' := by
  induction h with
  | @select source projection s s' _ ih =>
    -- neither the entity nor the projection is part of a clause
    obtain ⟨hfilters, horders⟩ := clauses_projected source.elementType projection s'.statement
    exact ih.thenQuiet rfl hfilters horders
  | filter _ _ ihs ihp => exact ihs.andThen (ihp.andThen (.filtered _))
  | order hdirection _ _ ihs ihe =>
    -- the word of the direction is no operator
    exact ihs.andThen (ihe.andThen (.pushThen (marks_direction hdirection) (.ordered _)))
  | asOf _ ih => exact ih.thenQuiet rfl rfl rfl
  | group hjoins _ _ ihl ihr =>
    cases hjoins with
    | domain => exact .group (domainText_mem _) ihl ihr
    | binary hop => exact .group (binaryText_mem hop) ihl ihr
  | not _ ih => exact .pushThen (by decide) ih
  | typeAs _ ih | lambda _ ih => exact ih
  | value hitem _ _ ih =>
    obtain ⟨horigin, hkeeps⟩ := origin_value hitem _
    rw [horigin, hkeeps]
    exact ih
  | @field e key entity name s fields he _ _ =>
    obtain ⟨horigin, hkeeps⟩ := origin_reads he
    have hasked : Balances .before (fun _ => true) s { s with fields } := .quiet rfl rfl rfl
    rw [horigin, hkeeps]
    exact hasked.andThen (.push (f := .field name) rfl _)
  | table => exact .reset _
  | constant hf =>
    obtain ⟨horigin, hkeeps⟩ := origin_constant hf
    rw [horigin, hkeeps]
    exact .push (marks_constantFragment hf) _
  | parameter | callNil => exact .quiet rfl rfl rfl
  | callCons _ _ ihe ihrest => exact ihe.andThen ihrest

/-! ## The end of a compilation -/

/-- A walk that leaves the pending clause and the clauses of the statement alone. -/
def IsQuiet {α : Type} (w : Walk σ α) : Prop :=
  ∀ (s s' : State σ) (a : α), w s = (.ok a, s') → s'.pending = s.pending ∧
    s'.statement.filters = s.statement.filters ∧ s'.statement.orders = s.statement.orders

theorem isQuiet_lookup (mapper : FieldMapper σ) (entity property : String) :
    IsQuiet (lookup mapper entity property) := by
  intro s s' field h
  obtain ⟨fields, -, rfl⟩ := lookup_eq_ok.1 h
  exact ⟨rfl, rfl, rfl⟩

theorem IsQuiet.bind {α β : Type} {w : Walk σ α} {f : α → Walk σ β} (hw : IsQuiet w) (hf : ∀ a, IsQuiet (f a)) :
    IsQuiet (w >>= f) := by
  intro s s' b h
  obtain ⟨a, mid, hfirst, hsecond⟩ := Walk.bind_eq_ok h
  obtain ⟨hpending, hfilters, horders⟩ := hw s mid a hfirst
  obtain ⟨hpending', hfilters', horders'⟩ := hf a mid s' b hsecond
  exact ⟨hpending'.trans hpending, hfilters'.trans hfilters, horders'.trans horders⟩

theorem isQuiet_lookupAll (mapper : FieldMapper σ) (entity : String) : ∀ names : List String,
    IsQuiet (lookupAll mapper entity names)
  | [] => fun s s' _ h => by cases h; exact ⟨rfl, rfl, rfl⟩
  | name :: names => .bind (isQuiet_lookup mapper entity name) fun field =>
    .bind (isQuiet_lookupAll mapper entity names) fun fields s s' _ h => by cases h; exact ⟨rfl, rfl, rfl⟩

theorem isQuiet_selectFields (mapper : FieldMapper σ) (mode : ProjectionMode) (entity : String)
    (projections : List Projection) : IsQuiet (selectFields mapper mode entity projections) := by
  have hdefaults : IsQuiet (defaults mapper entity) := fun s s' _ h => by cases h; exact ⟨rfl, rfl, rfl⟩
  unfold selectFields
  rcases requested projections with _ | ⟨name, names⟩
  · cases mode <;> exact hdefaults
  · cases mode with
    | explicit => exact isQuiet_lookupAll mapper entity (name :: names)
    | defaultFields => exact .bind (fun s s' _ h => by cases h; exact ⟨rfl, rfl, rfl⟩) fun _ => hdefaults

theorem isQuiet_selection (mapper : FieldMapper σ) (mode : ProjectionMode) (entity : String) :
    IsQuiet (selection mapper mode entity) :=
  fun s => isQuiet_selectFields mapper mode entity s.statement.projections s

theorem isQuiet_entityOf (root : Option String) : IsQuiet (σ := σ) (entityOf root) := by
  intro s s' entity h
  unfold entityOf at h
  split at h <;> cases h <;> exact ⟨rfl, rfl, rfl⟩

theorem balanced_typeClause {types : List String} {clause : Fragment} (h : typeClause? types = some clause) :
    Balanced clause.marks := by
  have hlimit : ∀ {text : String} {value : Fragment}, text ∈ operatorTexts → value.marks = [] →
      Balanced (typeClause?.limit text value).marks := by
    intro text value htext hvalue
    have hmarks : (typeClause?.limit text value).marks = [.opens, .operator, .closes] := by
      simp [typeClause?.limit, Fragment.marks, Fragment.marksAll, htext, hvalue]
    rw [hmarks]
    decide
  unfold typeClause? at h
  split at h <;> cases h
  · exact hlimit (by decide) rfl
  · exact hlimit (by decide) rfl

/-- A statement has the clauses of the walk, and one more filter that limits it to work item types. -/
theorem parts_of_compile {mapper : FieldMapper σ} {mode : ProjectionMode} {e : Expr} {fields : σ} {q : Statement}
    (h : (compile mapper mode e fields).result = .ok q) :
    ∃ (s : State σ) (entity : String),
      visit mapper e.elementType e { fields, notices := [.compiling e.elementType] } = (.ok (), s) ∧
      q.entity = some entity ∧ q.orders = s.statement.orders ∧ q.filters = s.statement.filters ++
        (typeClause? (mapper.typeRestriction (compile mapper mode e fields).fields entity)).toList := by
  rcases hc : compilation mapper mode e { fields } with ⟨result, last⟩
  have hresult : result = .ok q := by rw [← h, compile, hc]
  have hfields : (compile mapper mode e fields).fields = last.fields := by rw [compile, hc]
  subst hresult
  obtain ⟨⟨⟩, start, hnote, hc⟩ := Walk.bind_eq_ok hc
  obtain ⟨⟨⟩, s, hvisit, hc⟩ := Walk.bind_eq_ok hc
  obtain ⟨entity, s₁, hentity, hc⟩ := Walk.bind_eq_ok hc
  obtain ⟨select, s₂, hselect, hend⟩ := Walk.bind_eq_ok hc
  cases hnote
  refine ⟨s, entity, hvisit, ?_⟩
  obtain ⟨-, hfilters, horders⟩ := isQuiet_entityOf _ _ _ _ hentity
  obtain ⟨-, hfilters', horders'⟩ := isQuiet_selection _ _ _ _ _ _ hselect
  cases hempty : select.isEmpty with
  | true => simp only [hempty, if_true] at hend; cases hend
  | false =>
    simp only [hempty, Bool.false_eq_true, if_false] at hend
    cases hend
    exact ⟨rfl, horders'.trans horders, by rw [hfields, ← hfilters, ← hfilters']⟩

theorem clauses_of_compile {mapper : FieldMapper σ} {mode : ProjectionMode} {e : Expr} {fields : σ} {q : Statement}
    (h : (compile mapper mode e fields).result = .ok q) :
    ∃ s : State σ, visit mapper e.elementType e { fields, notices := [.compiling e.elementType] } = (.ok (), s) ∧
      (q.HasBalancedClauses ↔ s.statement.HasBalancedClauses) := by
  obtain ⟨s, entity, hvisit, -, horders, hfilters⟩ := parts_of_compile h
  refine ⟨s, hvisit, ?_⟩
  simp only [Statement.HasBalancedClauses, List.forall_mem_append, hfilters, horders]
  have htypes : ∀ clause ∈ (typeClause? (mapper.typeRestriction (compile mapper mode e fields).fields entity)).toList,
      Balanced clause.marks := fun clause hclause => balanced_typeClause (Option.mem_toList.1 hclause)
  exact ⟨fun hall => ⟨hall.1.1, hall.2⟩, fun hall => ⟨⟨hall.1, htypes⟩, hall.2⟩⟩

end Compilation

/-- The clauses of a statement close the groups that they open, and have their operators inside of groups, exactly
when each clause ends in the operand in which it began. -/
theorem clauses_balanced_iff {σ : Type} {mapper : FieldMapper σ} {mode : ProjectionMode} {e : Expr} {fields : σ}
    {q : Statement} (h : (compile mapper mode e fields).result = .ok q) :
    (∀ clause ∈ q.filters ++ q.orders, Balanced clause.marks) ↔ e.keepsGroups true = true := by
  obtain ⟨s, hvisit, hclauses⟩ := clauses_of_compile h
  have hstart : ({} : Statement).HasBalancedClauses := fun clause hclause => absurd hclause List.not_mem_nil
  have hbalanced := (balances_of_visits (visits_of_visit e hvisit)).balanced
  exact hclauses.trans (hbalanced.trans (and_iff_right hstart))

/-- A table in an operand cuts off the parenthesis before it: the filter is `(Title = 'a') AND (State = 'b'))`. -/
theorem clauses_balanced_iff_nested_table :
    let task := Registry.ofMappings [EntityMapping.new "Task" |>.property "Title" "Title" |>.property "State" "State"]
    let title := Expr.binary .equal (Expr.field "Title") (.constant (.string "a"))
    let state := Expr.binary .equal (Expr.field "State") (.constant (.string "b"))
    let e := Expr.filter (Expr.table "Task") (.binary .andAlso (.call "Any" [Expr.table "Task", title]) state)
    ∃ q, (compile .registry .explicit e task).result = .ok q ∧ q.filterTexts = ["(Title = 'a') AND (State = 'b'))"] ∧
      ¬∀ clause ∈ q.filters ++ q.orders, Balanced clause.marks := by
  intro task title state e
  obtain ⟨q, hq, htexts⟩ : ∃ q, (compile .registry .explicit e task).result = .ok q ∧
    q.filterTexts = ["(Title = 'a') AND (State = 'b'))"] := ⟨_, rfl, by decide +kernel⟩
  exact ⟨q, hq, htexts, fun hall => absurd ((clauses_balanced_iff hq).1 hall) (by decide)⟩

end WorkItemQuery
