/-
What a member stands for. The value inside a property is the property itself, and so is a property seen as another type,
so a chain of these stands for the one field at its end. A cast may hold anything, though, and what is cast is then
visited in place of a field: a constant, a comparison, even a query. Whether an expression adds one field and does
nothing else can be seen from the expression: it does if one field is all that it is made of, and otherwise only if no
walk over it ends well.
-/
import WorkItemQuery.Proofs.Compilation.Refusal

namespace WorkItemQuery

open Compilation Walk

/-! ## What can be seen from an expression -/

namespace Expr

/-- What is left of an expression without its casts and without the members that stand for the value of a property. -/
def underValues : Expr → Expr
  | .unary .typeAs operand => operand.underValues
  | .member target name =>
    if !isItem target && (isProperty target && name == valueMember) then target.underValues else .member target name
  | e => e

/-- The name of the property that an expression is, if it is one. -/
def property? : Expr → Option String
  | .member target name => if isItem target then some name else none
  | .indexer key => some key
  | _ => none

mutual

/-- The number of fields that an expression is made of, if the walk over it comes to nothing else. -/
def fieldCount : Expr → Option Nat
  | .indexer _ => some 1
  | .member target _ => if isItem target then some 1 else target.fieldCount
  | .unary .typeAs operand => operand.fieldCount
  | .lambda _ body => body.fieldCount
  | .call _ arguments => fieldCountAll arguments
  | .parameter _ => some 0
  | .select _ _ | .filter _ _ | .order _ _ _ | .asOf _ _ | .domain _ _ _ => none
  | .binary _ _ _ | .unary _ _ | .constant _ => none

def fieldCountAll : List Expr → Option Nat
  | [] => some 0
  | e :: rest => do return (← e.fieldCount) + (← fieldCountAll rest)

end

end Expr

/-- A mapper that knows every field. -/
def FieldMapper.IsTotal {σ : Type} (mapper : FieldMapper σ) : Prop :=
  ∀ entity property fields, ∃ field fields', mapper.resolve entity property fields = (.ok field, fields')

namespace Compilation

variable {σ : Type} {mapper : FieldMapper σ} {root : Option String}

/-- Fields have been added to the pending clause, and nothing else has changed but the state of the mapper. -/
structure AddsFields (names : List String) (s s' : State σ) : Prop where
  pending : s'.pending = s.pending ++ names.map .field
  statement : s'.statement = s.statement
  notices : s'.notices = s.notices

/-- Wherever the walk over an expression ends well, it has added one field and done nothing else. -/
def StandsForField (e : Expr) : Prop :=
  ∀ (σ : Type) (mapper : FieldMapper σ) (root : Option String) (s s' : State σ), visit mapper root e s = (.ok (), s') →
    ∃ name, AddsFields [name] s s'

/-! ## Values and casts -/

/-- Casts and the values of properties are passed over. -/
theorem visit_underValues (mapper : FieldMapper σ) (root : Option String) : ∀ e : Expr,
    visit mapper root e = visit mapper root e.underValues
  | .unary .typeAs operand => visit_underValues mapper root operand
  | .member target name => by
    rw [Expr.underValues]
    split
    · rename_i h
      rw [Bool.and_eq_true, Bool.not_eq_true'] at h
      rw [visit, h.1, h.2]
      exact visit_underValues mapper root target
    · rfl
  | .unary .not _ | .unary .convert _ | .unary .negate _ => rfl
  | .select _ _ | .filter _ _ | .order _ _ _ | .asOf _ _ | .domain _ _ _ | .binary _ _ _ => rfl
  | .indexer _ | .constant _ | .parameter _ | .lambda _ _ | .call _ _ => rfl

theorem visit_property {e : Expr} {key : String} (h : e.property? = some key) :
    visit mapper root e = (do emit (.field (← resolve mapper root key))) := by
  cases e with
  | member target name =>
    rw [Expr.property?] at h
    split at h
    · rename_i hitem
      cases h
      rw [visit, if_pos hitem]
    · cases h
  | indexer _ => cases h; rw [visit]
  | _ => cases h

/-! ## Expressions made of fields -/

theorem fieldCount_reads {e : Expr} {key : String} (h : Reads e key) : e.fieldCount = some 1 := by
  cases h with
  | member hitem => rw [Expr.fieldCount, if_pos hitem]
  | indexer => rfl

theorem fieldCount_value {target : Expr} (h : isItem target = false) (name : String) :
    (Expr.member target name).fieldCount = target.fieldCount := by
  rw [Expr.fieldCount, h]
  rfl

namespace AddsFields

theorem none (s : State σ) : AddsFields [] s s := ⟨(List.append_nil _).symm, rfl, rfl⟩

theorem append {names more : List String} {s mid s' : State σ} (h : AddsFields names s mid)
    (h' : AddsFields more mid s') : AddsFields (names ++ more) s s' where
  pending := by rw [h'.pending, h.pending, List.map_append, List.append_assoc]
  statement := h'.statement.trans h.statement
  notices := h'.notices.trans h.notices

end AddsFields

/-- An expression made of fields adds as many as it is made of. -/
theorem addsFields_of_visits {e : Expr} {n : Nat} {s s' : State σ} (h : Visits mapper root e s s')
    (hn : e.fieldCount = some n) : ∃ names, names.length = n ∧ AddsFields names s s' := by
  induction h generalizing n with
  | @field e key entity name s fields hreads _ _ =>
    rw [fieldCount_reads hreads] at hn
    cases hn
    exact ⟨[name], rfl, rfl, rfl, rfl⟩
  | value hitem _ _ ih => exact ih ((fieldCount_value hitem _).symm.trans hn)
  | typeAs _ ih | lambda _ ih => exact ih hn
  | parameter | callNil =>
    cases hn
    exact ⟨[], rfl, .none _⟩
  | callCons _ _ ihe ihrest =>
    obtain ⟨k, hk, hn⟩ := Option.bind_eq_some_iff.1 hn
    obtain ⟨m, hm, hn⟩ := Option.bind_eq_some_iff.1 hn
    cases hn
    obtain ⟨names, hnames, hadds⟩ := ihe hk
    obtain ⟨more, hmore, hadds'⟩ := ihrest hm
    exact ⟨names ++ more, by rw [List.length_append, hnames, hmore], hadds.append hadds'⟩
  | group hjoins _ _ _ _ => cases hjoins <;> cases hn
  | select _ _ | filter _ _ _ _ | order _ _ _ _ _ | asOf _ _ | not _ _ | table | constant _ => cases hn

/-! ## Expressions made of anything else -/

/-- A fragment that no walk adds. -/
def mark : Fragment := .compound []

/-- Since the mark was set nothing but fields has been added. -/
structure OnlyFields (s : State σ) : Prop where
  projections : s.statement.projections = []
  asOf : s.statement.asOf = none
  pending : ∃ names : List String, s.pending = mark :: names.map .field

namespace OnlyFields

variable {s s' : State σ}

theorem pending_ne_nil (h : OnlyFields s) : s.pending ≠ [] := by
  obtain ⟨names, hnames⟩ := h.pending
  rw [hnames]
  exact List.cons_ne_nil _ _

/-- Nothing has been added last but the mark or a field. -/
theorem last_pushed {f : Fragment} (h : OnlyFields (s.push f)) : f = mark ∨ ∃ name, f = .field name := by
  obtain ⟨names, hnames⟩ := h.pending
  have hf : f ∈ mark :: names.map .field := hnames ▸ List.mem_append_right _ (List.mem_singleton.2 rfl)
  rcases List.mem_cons.1 hf with hf | hf
  · exact .inl hf
  · obtain ⟨name, -, rfl⟩ := List.mem_map.1 hf
    exact .inr ⟨name, rfl⟩

/-- A field more or less makes no difference. -/
theorem of_addsField {name : String} (h : OnlyFields s') (hadds : AddsFields [name] s s') : OnlyFields s where
  projections := hadds.statement ▸ h.projections
  asOf := hadds.statement ▸ h.asOf
  pending := by
    obtain ⟨names, hnames⟩ := h.pending
    have hlast : s.pending ++ [.field name] = mark :: names.map .field := hadds.pending.symm.trans hnames
    rcases List.eq_nil_or_concat names with rfl | ⟨front, last, rfl⟩
    · -- the field would be the mark
      have hlength : s.pending.length = 0 := by simpa using congrArg List.length hlast
      rw [List.length_eq_zero_iff.1 hlength] at hlast
      cases hlast
    · refine ⟨front, ?_⟩
      have hsame : s.pending ++ [.field name] = (mark :: front.map .field) ++ [.field last] := by simpa using hlast
      exact List.append_inj_left' hsame rfl

end OnlyFields

/-- The fragment of a constant is neither a field nor the mark. -/
theorem constantFragment_ne {k : Constant} {f : Fragment} (h : constantFragment? k = some f) :
    f ≠ mark ∧ ∀ name, f ≠ .field name := by
  cases k with
  | double _ | intList _ | stringList _ =>
    rw [constantFragment?] at h
    split at h <;> cases h
    exact ⟨by rintro ⟨⟩, by rintro _ ⟨⟩⟩
  | null | string _ | timestamp _ | int16 _ | int32 _ | int64 _ =>
    cases h
    exact ⟨by rintro ⟨⟩, by rintro _ ⟨⟩⟩
  | table _ | bool _ | foreign _ _ => cases h

/-- What a walk that adds nothing but fields says about the expression. -/
structure CountsFields (count : Option Nat) (s s' : State σ) : Prop where
  before : OnlyFields s
  count : ∃ n, count = some n ∧ s'.pending.length = s.pending.length + n

/-- A walk that ends with nothing but fields after the mark has come to nothing but fields, and began that way. -/
theorem countsFields_of_visits {e : Expr} {s s' : State σ} (h : Visits mapper root e s s') (hs' : OnlyFields s') :
    CountsFields e.fieldCount s s' := by
  induction h with
  | @select source projection s s' _ _ =>
    have hprojections := projections_projected source.elementType projection s'.statement
    exact absurd (hprojections.symm.trans hs'.projections)
      (List.append_ne_nil_of_right_ne_nil _ (List.cons_ne_nil _ _))
  | filter _ _ _ _ | order _ _ _ _ _ | table => exact absurd rfl hs'.pending_ne_nil
  | asOf _ _ => exact absurd hs'.asOf (Option.some_ne_none _)
  | group _ _ _ _ _ =>
    obtain hmark | ⟨name, hname⟩ := hs'.last_pushed
    · cases hmark
    · cases hname
  | not _ ih =>
    obtain hmark | ⟨name, hname⟩ := (ih hs').before.last_pushed
    · cases hmark
    · cases hname
  | constant hf =>
    obtain ⟨hmark, hfield⟩ := constantFragment_ne hf
    obtain heq | ⟨name, heq⟩ := hs'.last_pushed
    · exact absurd heq hmark
    · exact absurd heq (hfield name)
  | typeAs _ ih | lambda _ ih => exact ih hs'
  | value hitem _ _ ih =>
    rw [fieldCount_value hitem]
    exact ih hs'
  | @field e key entity name s fields hreads _ _ =>
    have hadds : AddsFields [name] s (State.push { s with fields } (.field name)) := ⟨rfl, rfl, rfl⟩
    rw [fieldCount_reads hreads]
    exact ⟨hs'.of_addsField hadds, 1, rfl, by rw [hadds.pending]; simp⟩
  | parameter | callNil => exact ⟨hs', 0, rfl, rfl⟩
  | @callCons method e rest s mid s' _ _ ihe ihrest =>
    obtain ⟨hmid, m, hm, hlength⟩ := ihrest hs'
    obtain ⟨hs, n, hn, hlength'⟩ := ihe hmid
    have hrest : Expr.fieldCountAll rest = some m := hm
    refine ⟨hs, n + m, ?_, by omega⟩
    rw [Expr.fieldCount, Expr.fieldCountAll, hn, hrest]
    rfl

/-! ## Walks that end well -/

/-- If every field is known, the walk over an expression ends well unless a part of it has no form. -/
theorem visit_eq_ok (htotal : mapper.IsTotal) {e : Expr}
    (hform : ¬∃ p part, e.Holds .elsewhere p part ∧ part.HasNoForm p) (entity : String) (s : State σ) :
    ∃ s', visit mapper (some entity) e s = (.ok (), s') := by
  rcases h : visit mapper (some entity) e s with ⟨err | ⟨⟩, s'⟩
  · have hblames := blames_visit mapper (some entity) e .elsewhere (by simp) s s' err h
    cases err with
    | unknownField _ =>
      obtain ⟨entity, property, fields, after, hresolve⟩ := hblames
      obtain ⟨name, after', hfound⟩ := htotal entity property fields
      rw [hfound] at hresolve
      cases hresolve
    | emptySelect _ => exact absurd hblames id
    | unsupported _ => exact absurd hblames hform
    | malformedOrder =>
      obtain ⟨p, source, selector, hholds⟩ := hblames
      exact absurd ⟨p, _, hholds, rfl⟩ hform
    | missingSource => cases hblames
  · exact ⟨s', rfl⟩

/-! ## What stands for a field -/

theorem standsForField_of_property {e : Expr} {key : String} (h : e.underValues.property? = some key) :
    StandsForField e := by
  intro σ mapper root s s' hs'
  rw [visit_underValues, visit_property h] at hs'
  obtain ⟨name, mid, hresolve, hemit⟩ := Walk.bind_eq_ok hs'
  obtain ⟨entity, fields, -, -, rfl⟩ := resolve_eq_ok.1 hresolve
  cases hemit
  exact ⟨name, rfl, rfl, rfl⟩

/-- An expression stands for a field if it is made of one, or if a part of it has no form. -/
theorem standsForField_iff {e : Expr} :
    StandsForField e ↔ e.fieldCount = some 1 ∨ ∃ p part, e.Holds .elsewhere p part ∧ part.HasNoForm p := by
  constructor
  · intro h
    by_cases hform : ∃ p part, e.Holds .elsewhere p part ∧ part.HasNoForm p
    · exact .inr hform
    · -- the walk from the mark on, with every field known, ends well and so with one field
      let mapper : FieldMapper Unit := ⟨fun _ property fields => (.ok property, fields), fun _ _ => [], fun _ _ => []⟩
      have htotal : mapper.IsTotal := fun _ property fields => ⟨property, fields, rfl⟩
      obtain ⟨s', hs'⟩ := visit_eq_ok htotal hform "" { fields := (), pending := [mark] }
      obtain ⟨name, hadds⟩ := h Unit mapper (some "") _ s' hs'
      have honly : OnlyFields s' := by
        refine ⟨?_, ?_, [name], hadds.pending⟩
        · rw [hadds.statement]
        · rw [hadds.statement]
      obtain ⟨-, n, hn, hlength⟩ := countsFields_of_visits (visits_of_visit e hs') honly
      have hone : n = 1 := by
        rw [hadds.pending] at hlength
        have htwo : 2 = 1 + n := hlength
        omega
      exact .inl (hone ▸ hn)
  · rintro (hcount | ⟨p, part, hholds, hnone⟩) σ mapper root s s' hs'
    · obtain ⟨names, hlength, hadds⟩ := addsFields_of_visits (visits_of_visit e hs') hcount
      obtain ⟨name, rfl⟩ := List.length_eq_one_iff.1 hlength
      exact ⟨name, hadds⟩
    · exact absurd hnone (not_hasNoForm_of_passes (passes_of_holds hholds (.inr ⟨s, s', visits_of_visit e hs'⟩)))

/-- A member does what is left of it without casts and values does. If that is a property, the member adds the field of
the property and does nothing else. In general it adds one field and does nothing else exactly if one field is all that
it is made of, or if it is refused wherever it stands. -/
theorem standsForField_member_iff (target : Expr) (name : String) :
    let e := Expr.member target name
    (∀ {σ : Type} (mapper : FieldMapper σ) (root : Option String),
      visit mapper root e = visit mapper root e.underValues) ∧
    (∀ key, e.underValues.property? = some key → StandsForField e ∧
      ∀ {σ : Type} (mapper : FieldMapper σ) (root : Option String),
        visit mapper root e = (do emit (.field (← resolve mapper root key)))) ∧
    (StandsForField e ↔ e.fieldCount = some 1 ∨ ∃ p part, e.Holds .elsewhere p part ∧ part.HasNoForm p) := by
  intro e
  refine ⟨fun mapper root => visit_underValues mapper root e, fun key hkey => ⟨standsForField_of_property hkey, ?_⟩,
    standsForField_iff⟩
  intro σ mapper root
  rw [visit_underValues, visit_property hkey]

/-- The value of a number that is cast is the number, and the comparison of the two compiles. -/
theorem standsForField_member_iff_cast :
    let value := Expr.member (.unary .typeAs (.constant (.int32 5))) "Value"
    let e := Expr.filter (Expr.table "Task") (.binary .equal value (.constant (.int32 5)))
    let task := Registry.ofMappings [EntityMapping.new "Task" |>.property "Id" "Id"]
    (∃ q, (compile .registry .explicit e task).result = .ok q ∧ q.filterTexts = ["(5 = 5)"]) ∧
      ¬StandsForField value := by
  intro value e task
  refine ⟨⟨_, rfl, by decide +kernel⟩, fun h => ?_⟩
  obtain ⟨-, -, hiff⟩ := standsForField_member_iff (.unary .typeAs (.constant (.int32 5))) "Value"
  have hvisit : visit FieldMapper.registry none value { fields := task } =
    (.ok (), { fields := task, pending := [.literal "5"] }) := rfl
  rcases hiff.1 h with hcount | ⟨p, part, hholds, hnone⟩
  · cases hcount
  · exact not_hasNoForm_of_passes (passes_of_holds hholds (.inr ⟨_, _, visits_of_visit value hvisit⟩)) hnone

end Compilation

end WorkItemQuery
