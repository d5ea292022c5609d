/-
The text of a clause, read as a condition of a pipeline. Statements write conditions with all their
parentheses, so the text of each predicate is a factor, whatever stands around it. It is read as the
predicate with its fields under their identifiers, and with null values and instants as strings.
-/
import WorkItemQuery.Proofs.Compilation.Fragments
import WorkItemQuery.Proofs.Pipeline.Produced

namespace WorkItemQuery

open Compilation Number Pipeline Text

/-! ## Texts that can stand anywhere -/

namespace Pipeline

/-- A text is a layout of the given tokens, after any gap and before any text. -/
def Lays (ts : List Token) (text : List Char) : Prop :=
  ∀ g rest : List Char, Gap g → Laid ts (g ++ (text ++ rest)) rest

namespace Lays

theorem append {ts us : List Token} {text text' : List Char} (h : Lays ts text) (h' : Lays us text') :
    Lays (ts ++ us) (text ++ text') := by
  intro g rest hg
  rw [List.append_assoc]
  exact (h g _ hg).append (h' [] rest .nil)

theorem blank {ts : List Token} {text : List Char} (h : Lays ts text) : Lays ts (' ' :: text) := by
  intro g rest hg
  have hgap : Gap (g ++ [' ']) := gap_append hg (.blank rfl .nil)
  simpa using h _ rest hgap

theorem token {t : Token} {w : List Char} (hw : t.Spelled w) (ha : ∀ cs, t.Apart cs) : Lays [t] w := by
  intro g rest hg
  rw [← List.append_assoc]
  exact .cons hg hw (ha rest) .nil

theorem sign {c : Char} (h : c ∈ signs) : Lays [.sign c] [c] := token (t := .sign c) ⟨h, rfl⟩ fun _ => trivial

/-- A blank keeps a token and what follows it apart. -/
theorem cons {t : Token} {w : List Char} {ts : List Token} {text : List Char} (hw : t.Spelled w)
    (h : Lays ts text) : Lays (t :: ts) (w ++ ' ' :: text) := by
  intro g rest hg
  have hlast : Laid ts (' ' :: (text ++ rest)) rest := h [' '] rest (.blank rfl .nil)
  have hlaid := Laid.cons hg hw (t.apart_blank (by rintro _ ⟨⟩; rfl)) hlast
  simpa using hlaid

theorem parens {ts : List Token} {text : List Char} (h : Lays ts text) :
    Lays (.sign '(' :: (ts ++ [.sign ')'])) ('(' :: (text ++ [')'])) :=
  (sign (c := '(') (by decide)).append (h.append (sign (by decide)))

/-- Items with a comma and a blank between them. -/
theorem commas {α : Type} {tokens : α → List Token} {text : α → String} (h : ∀ a, Lays (tokens a) (text a).toList) :
    ∀ (a : α) (as : List α), Lays (listed tokens (a :: as)) (String.intercalate ", " ((a :: as).map text)).toList
  | a, [] => by simpa [listed, String.intercalate_singleton] using h a
  | a, b :: as => by
    have hcomma : Lays [.sign ','] [','] := sign (by decide)
    have hmore := (h a).append (hcomma.append (commas h b as).blank)
    simpa [listed, String.intercalate_cons_cons] using hmore

end Lays

end Pipeline

/-! ## Constants -/

namespace Constant

/-- What a statement says in place of a constant: null is the empty string, an instant is its text. -/
def restated : Constant → Constant
  | null => string ""
  | timestamp t => string t.statementText
  | k => k

theorem listed_map {α β : Type} (tokens : β → List Token) (f : α → β) (as : List α) :
    listed tokens (as.map f) = listed (fun a => tokens (f a)) as := by
  cases as with
  | nil => rfl
  | cons a as => simp [listed, List.flatMap_map]

theorem lays_list {α : Type} {f : α → Scalar} {text : α → String} {as : List α} (hne : as ≠ [])
    (h : ∀ a, Lays [(f a).token] (text a).toList) :
    Lays (Literal.list (as.map f)).tokens (Fragment.listText (as.map text)).toList := by
  obtain ⟨a, as, rfl⟩ := List.exists_cons_of_ne_nil hne
  have hparens := (Lays.commas h a as).parens
  rw [Literal.tokens, listed_map]
  simpa [Fragment.listText] using hparens

theorem lays_string (s : String) : Lays [.string s] (quote s).toList := by
  rw [quote, String.toList_ofList]
  exact .token (t := .string s) rfl fun _ => trivial

theorem lays_int (i : Int) : Lays [.number (.ofInt i)] (intText i).toList := by
  rw [← NumberText.chars_ofInt]
  exact .token (t := .number (.ofInt i)) ⟨NumberText.isNumber_ofInt i, rfl⟩ fun _ => trivial

/-- The text of a constant in a statement is read as the constant that is said in its place. -/
theorem lays_restated (style : TimeStyle) {k : Constant} (h : k.restated.IsLiteral) :
    ∃ f, constantFragment? k = some f ∧ Lays (k.restated.literal style).tokens f.render.toList := by
  cases k with
  | string s => exact ⟨_, rfl, by rw [Fragment.render]; exact lays_string s⟩
  | null => exact ⟨_, rfl, by rw [Fragment.render]; exact lays_string ""⟩
  | timestamp t => exact ⟨_, rfl, by rw [Fragment.render]; exact lays_string _⟩
  | int32 v => exact ⟨_, rfl, by rw [Fragment.render]; exact lays_int _⟩
  | int64 v => exact ⟨_, rfl, by rw [Fragment.render]; exact lays_int _⟩
  | intList vs =>
    have hne : vs ≠ [] := h
    refine ⟨.numberList vs, ?_, ?_⟩
    · rw [constantFragment?, if_neg (by simpa using hne)]
    · rw [Fragment.render]; exact lays_list hne fun v => lays_int v.toInt
  | stringList ss =>
    have hne : ss ≠ [] := h
    refine ⟨.stringList ss, ?_, ?_⟩
    · rw [constantFragment?, if_neg (by simpa using hne)]
    · rw [Fragment.render]; exact lays_list hne fun s => lays_string s
  | table _ | int16 _ | double _ | bool _ | foreign _ _ => exact absurd h id

end Constant

namespace Pipeline

/-- Whether a number is written without a point. -/
def Scalar.IsWhole : Scalar → Prop
  | .number n => n.fraction = []
  | .string _ => True

/-- Whether all numbers of a value are written without a point. -/
def Literal.IsWhole : Literal → Prop
  | .number n => n.fraction = []
  | .list items => ∀ x ∈ items, x.IsWhole
  | _ => True

/-- Whether all numbers of a condition are written without a point. -/
def Condition.IsWhole : Condition → Prop
  | .test _ _ v => v.IsWhole
  | .not c => c.IsWhole
  | .and c d | .or c d => c.IsWhole ∧ d.IsWhole

theorem isLiteral_of_number {n : NumberText} {k : Constant} (h : n.constant = .ok k) (hn : n.fraction = []) :
    k.restated.IsLiteral := by
  unfold NumberText.constant at h
  rw [hn, List.isEmpty_nil, if_pos rfl] at h
  split at h
  · cases h; trivial
  · rename_i h32 h64
    cases h
    rename_i v
    show v.toInt < -2147483648 ∨ 2147483647 < v.toInt
    rw [toInt_of_int64? h64]
    exact int32?_eq_none.1 h32
  · cases h

theorem isLiteral_of_list {items : List Scalar} {k : Constant} (h : listConstant items = .ok k) :
    k.restated.IsLiteral := by
  unfold listConstant at h
  rcases hs : splitScalars items with err | ⟨numbers, strings⟩
  · rw [hs] at h; cases h
  · rw [hs] at h
    cases numbers with
    | nil =>
      cases strings with
      | nil => cases h
      | cons s strings => cases h; exact List.cons_ne_nil _ _
    | cons v numbers =>
      cases strings with
      | nil => cases h; exact List.cons_ne_nil _ _
      | cons s strings => cases h

theorem isLiteral_of_constant {v : Literal} {k : Constant} (h : v.constant = .ok k) (hv : v.IsWhole) :
    k.restated.IsLiteral := by
  cases v with
  | list items => exact isLiteral_of_list h
  | number n => exact isLiteral_of_number h hv
  | timestamp s =>
    rcases ht : timeOf s with err | t
    · rw [Literal.constant, ht] at h; cases h
    · rw [Literal.constant, ht] at h; cases h; trivial
  | string s => cases h; trivial
  | null => cases h; trivial

end Pipeline

/-! ## Predicates -/

/-- The field that a property of an entity stands for; an unknown property is left as it is. -/
def Registry.fieldOf (r : Registry) (entity property : String) : String :=
  match r.resolve entity property with
  | .ok field => field
  | .error _ => property

/-- Every field of a registry has an identifier that is a name, and not the word `not`. -/
def Registry.HasReadableFields (r : Registry) : Prop :=
  ∀ m ∈ r.entities, ∀ p ∈ m.properties, IsName p.field ∧ ¬SpellsWord "not" p.field.toList

instance (r : Registry) : Decidable r.HasReadableFields := inferInstanceAs (Decidable (∀ m ∈ r.entities, _))

/-- What a statement says in place of a predicate: the same, with fields for properties and keys, and with restated
constants. -/
def Expr.restated (r : Registry) (entity : String) : Expr → Expr
  | .member _ name => Expr.field (r.fieldOf entity name)
  | .indexer key => Expr.field (r.fieldOf entity key)
  | .constant k => .constant k.restated
  | .binary op p q => .binary op (p.restated r entity) (q.restated r entity)
  | .domain op p q => .domain op (p.restated r entity) (q.restated r entity)
  | .unary op p => .unary op (p.restated r entity)
  | e => e

theorem Registry.readable {r : Registry} (h : r.HasReadableFields) {entity property field : String}
    (hf : r.resolve entity property = .ok field) : IsName field ∧ ¬SpellsWord "not" field.toList := by
  unfold Registry.resolve at hf
  rcases hp : (r.entity? entity).bind (·.find? property) with _ | p
  · rw [hp] at hf; cases hf
  · rw [hp] at hf
    cases hf
    obtain ⟨m, hm, hp⟩ := Option.bind_eq_some_iff.1 hp
    exact h m (List.mem_of_find?_eq_some hm) p (List.mem_of_find?_eq_some hp)

theorem renderAll_append : ∀ parts more : List Fragment,
    Fragment.renderAll (parts ++ more) = Fragment.renderAll parts ++ Fragment.renderAll more
  | [], more => by rw [List.nil_append, Fragment.renderAll, String.empty_append]
  | f :: parts, more => by
    rw [List.cons_append, Fragment.renderAll, Fragment.renderAll, renderAll_append parts more, String.append_assoc]

/-- A text can stand as a factor for a predicate. -/
def ReadsAs (text : String) (p : Expr) : Prop := ∃ ts, Says .factor p ts ∧ Lays ts text.toList

namespace Pipeline

/-- The text between the two sides of a test. -/
def Relation.text? : Relation → Option String
  | .compare op => binaryText? op
  | .domain op => some (domainText op)

theorem relation_text {r : Relation} {text : String} (h : r.text? = some text)
    (hr : ∀ op, r = .compare op → op.IsComparison) :
    ∃ w, text.toList = ' ' :: (w ++ [' ']) ∧ r.token.Spelled w := by
  cases r with
  | compare op =>
    have hop := hr op rfl
    cases op <;> first | exact absurd hop id | skip
    all_goals
      cases h
      exact ⟨_, rfl, _, List.mem_cons_self, rfl⟩
  | domain op =>
    cases h
    cases op with
    | isIn => exact ⟨"IN".toList, rfl, show SpellsWord _ _ by decide⟩
    | under => exact ⟨"UNDER".toList, rfl, show SpellsWord _ _ by decide⟩
    | wasEver => exact ⟨"EVER".toList, rfl, show SpellsWord _ _ by decide⟩
    | contains => exact ⟨"CONTAINS".toList, rfl, show SpellsWord _ _ by decide⟩
    | inGroup =>
      exact ⟨_, rfl, "IN".toList, [' '], "GROUP".toList, rfl, by decide, by decide, by decide,
        show SpellsWord _ _ by decide⟩
    | notInGroup =>
      exact ⟨_, rfl, "NOT".toList, [' '], "IN GROUP".toList, rfl, by decide, by decide, by decide,
        "IN".toList, [' '], "GROUP".toList, rfl, by decide, by decide, by decide, show SpellsWord _ _ by decide⟩

end Pipeline

theorem readsAs_test {r : Relation} {field text : String} {k : Constant} {f : Fragment}
    (hfield : IsName field) (hnot : ¬SpellsWord "not" field.toList) (htext : r.text? = some text)
    (hr : ∀ op, r = .compare op → op.IsComparison) (hk : k.restated.IsLiteral) (hf : constantFragment? k = some f) :
    ReadsAs (Fragment.renderAll [.groupOpen, .field field, .literal text, f, .groupClose])
      (r.toExpr (Expr.field field) (.constant k.restated)) := by
  obtain ⟨f', hf', hlays⟩ := Constant.lays_restated .exact hk
  rw [hf] at hf'
  cases hf'
  -- the relation stands between blanks, so it runs into neither side
  obtain ⟨w, hw, hspelled⟩ := relation_text htext hr
  have hname : (Operand.name field).token.Spelled field.toList := ⟨hfield, rfl⟩
  have hsaid := Says.test (o := .name field) (r := r) (fun h => absurd h hnot) (Constant.constant_literal .exact hk)
  refine ⟨_, hsaid.term.whole.parens, ?_⟩
  have htokens := (Lays.cons hname (Lays.cons hspelled hlays)).parens
  simpa [Fragment.renderAll, Fragment.render, hw] using htokens

theorem readsAs_not {parts : List Fragment} {p : Expr} (h : ReadsAs (Fragment.renderAll parts) p) :
    ReadsAs (Fragment.renderAll (.literal " NOT " :: parts)) (.unary .not p) := by
  obtain ⟨ts, hsaid, hlays⟩ := h
  have hword : (Token.word "not").Spelled "NOT".toList := ⟨by decide, by decide⟩
  refine ⟨_, hsaid.not, ?_⟩
  have htokens := (Lays.cons hword hlays).blank
  simpa [Fragment.renderAll, Fragment.render] using htokens

theorem readsAs_and {parts more : List Fragment} {p q : Expr}
    (hp : ReadsAs (Fragment.renderAll parts) p) (hq : ReadsAs (Fragment.renderAll more) q) :
    ReadsAs (Fragment.renderAll (.groupOpen :: (parts ++ .literal " AND " :: (more ++ [.groupClose]))))
      (.binary .andAlso p q) := by
  obtain ⟨ts, hsaid, hlays⟩ := hp
  obtain ⟨us, hsaid', hlays'⟩ := hq
  have hword : (Token.word "and").Spelled "AND".toList := ⟨by decide, by decide⟩
  refine ⟨_, (hsaid.term.and hsaid').whole.parens, ?_⟩
  have htokens := (hlays.append (Lays.cons hword hlays').blank).parens
  simpa [Fragment.renderAll, Fragment.render, renderAll_append] using htokens

theorem readsAs_or {parts more : List Fragment} {p q : Expr}
    (hp : ReadsAs (Fragment.renderAll parts) p) (hq : ReadsAs (Fragment.renderAll more) q) :
    ReadsAs (Fragment.renderAll (.groupOpen :: (parts ++ .literal " OR " :: (more ++ [.groupClose]))))
      (.binary .orElse p q) := by
  obtain ⟨ts, hsaid, hlays⟩ := hp
  obtain ⟨us, hsaid', hlays'⟩ := hq
  have hword : (Token.word "or").Spelled "OR".toList := ⟨by decide, by decide⟩
  refine ⟨_, (hsaid.term.whole.or hsaid'.term).parens, ?_⟩
  have htokens := (hlays.append (Lays.cons hword hlays').blank).parens
  simpa [Fragment.renderAll, Fragment.render, renderAll_append] using htokens

end WorkItemQuery
