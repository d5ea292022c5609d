/-
The lines of a batch's output. JSON has one line for every query. Statements are written as they are, and a line feed
reaches them from three places: the strings that a query compares with, the identifiers of fields and the names of
work item types. So statements have one line apiece if and only if none of these holds a line feed.
-/
import WorkItemQuery.Batch.Basic
import WorkItemQuery.Proofs.Compilation.ReadBack
import WorkItemQuery.Proofs.Pipeline.Meaning
import WorkItemQuery.Proofs.Text.Feeds

namespace WorkItemQuery

open Compilation Number Pipeline Text Time

/-! ## Strings and fields -/

/-- The strings of a constant. -/
def Constant.strings : Constant → List String
  | .string text => [text]
  | .stringList texts => texts
  | _ => []

/-- The strings that a predicate compares fields with. -/
def Expr.comparands : Expr → List String
  | .constant k => k.strings
  | .binary _ p q | .domain _ p q => p.comparands ++ q.comparands
  | .unary _ p => p.comparands
  | _ => []

namespace Fragment

mutual

/-- The fields that a fragment names. -/
def fields : Fragment → List String
  | field name => [name]
  | compound parts => fieldsAll parts
  | _ => []

def fieldsAll : List Fragment → List String
  | [] => []
  | f :: rest => fields f ++ fieldsAll rest

end

theorem fieldsAll_append : ∀ parts more : List Fragment, fieldsAll (parts ++ more) = fieldsAll parts ++ fieldsAll more
  | [], _ => rfl
  | f :: parts, more => by
    rw [List.cons_append, fieldsAll, fieldsAll, fieldsAll_append parts more, List.append_assoc]

end Fragment

/-! ## Line feeds in clauses -/

/-- The text of some fragments has line feeds from the given strings and from the fields it names, and from nowhere
else. -/
def FeedsFrom (strings : List String) (parts : List Fragment) : Prop :=
  HasFeed (Fragment.renderAll parts) ↔ AnyFeed (strings ++ Fragment.fieldsAll parts)

namespace FeedsFrom

variable {strings more : List String} {parts others : List Fragment}

theorem append (h : FeedsFrom strings parts) (h' : FeedsFrom more others) :
    FeedsFrom (strings ++ more) (parts ++ others) := by
  unfold FeedsFrom at *
  simp only [renderAll_append, Fragment.fieldsAll_append, hasFeed_append, anyFeed_append] at *
  rw [h, h', or_or_or_comm]

theorem nil : FeedsFrom [] [] := by
  simp [FeedsFrom, Fragment.renderAll, Fragment.fieldsAll, HasFeed]

theorem single {f : Fragment} (h : HasFeed f.render ↔ AnyFeed (strings ++ f.fields)) : FeedsFrom strings [f] := by
  simpa [FeedsFrom, Fragment.renderAll, Fragment.fieldsAll] using h

theorem field (name : String) : FeedsFrom [] [.field name] :=
  single (by simp [Fragment.render, Fragment.fields])

theorem literal {text : String} (h : ¬HasFeed text) : FeedsFrom [] [.literal text] :=
  single (by simp [Fragment.render, Fragment.fields, h])

theorem group {text : String} (h : FeedsFrom strings parts) (htext : ¬HasFeed text) (h' : FeedsFrom more others) :
    FeedsFrom (strings ++ more) (.groupOpen :: (parts ++ .literal text :: (others ++ [.groupClose]))) := by
  have hopen : FeedsFrom [] [.groupOpen] := single (by simp [Fragment.render, Fragment.fields]; decide)
  have hclose : FeedsFrom [] [.groupClose] := single (by simp [Fragment.render, Fragment.fields]; decide)
  have hall := hopen.append (h.append ((literal htext).append (h'.append hclose)))
  simpa using hall

end FeedsFrom

theorem hasFeed_listText (texts : List String) : HasFeed (Fragment.listText texts) ↔ AnyFeed texts := by
  have hopen : ¬HasFeed "(" := by decide
  have hclose : ¬HasFeed ")" := by decide
  have hcomma : ¬HasFeed ", " := by decide
  simp [Fragment.listText, hasFeed_intercalate hcomma, hopen, hclose]

theorem feedsFrom_constant {k : Constant} {f : Fragment} (h : constantFragment? k = some f) :
    FeedsFrom k.strings [f] := by
  cases k with
  | null =>
    cases h
    have hempty : ¬HasFeed "" := by decide
    exact .single (by simp [Fragment.render, Fragment.fields, Constant.strings, hempty])
  | string text => cases h; exact .single (by simp [Fragment.render, Fragment.fields, Constant.strings])
  | timestamp t =>
    cases h
    exact .single (by simp [Fragment.render, Fragment.fields, Constant.strings, not_hasFeed_statementText])
  | int16 v | int32 v | int64 v => cases h; exact .literal (not_hasFeed_intText v.toInt)
  | double v =>
    rw [constantFragment?] at h
    split at h
    · cases h; exact .literal (not_hasFeed_double v)
    · cases h
  | intList vs =>
    rw [constantFragment?] at h
    split at h
    · cases h
    · cases h
      have hnone : ¬AnyFeed (vs.map fun v => intText v.toInt) := by
        rintro ⟨text, htext, hfeed⟩
        obtain ⟨v, -, rfl⟩ := List.mem_map.1 htext
        exact not_hasFeed_intText v.toInt hfeed
      exact .single (by simp [Fragment.render, Fragment.fields, Constant.strings, hasFeed_listText, hnone])
  | stringList vs =>
    rw [constantFragment?] at h
    split at h
    · cases h
    · cases h
      exact .single (by simp [Fragment.render, Fragment.fields, Constant.strings, hasFeed_listText, AnyFeed])
  | table _ | bool _ | foreign _ _ => cases h

theorem not_hasFeed_relation {rel : Relation} {text : String} (h : rel.text? = some text) : ¬HasFeed text := by
  cases rel with
  | compare op => cases op <;> cases h <;> decide
  | domain op => cases op <;> cases h <;> decide

theorem getLast_group (parts others : List Fragment) (text : String) :
    (Fragment.groupOpen :: (parts ++ .literal text :: (others ++ [.groupClose]))).getLast? = some .groupClose :=
  List.getLast?_eq_some_iff.2 ⟨.groupOpen :: (parts ++ .literal text :: others), by simp⟩

section Conditions

variable {σ : Type} {mapper : FieldMapper σ} {entity : String}

theorem fragments_operand_field {o : Operand} {parts : List Fragment} {s s' : σ}
    (h : fragments mapper entity o.toExpr s = (.ok parts, s')) : ∃ name, parts = [.field name] := by
  cases o <;>
  · obtain ⟨name, mid, -, hend⟩ := Asking.bind_eq_ok h
    cases hend
    exact ⟨name, rfl⟩

theorem comparands_operand (o : Operand) : o.toExpr.comparands = [] := by
  cases o <;> rfl

theorem comparands_relation (rel : Relation) (p q : Expr) :
    (rel.toExpr p q).comparands = p.comparands ++ q.comparands := by
  cases rel <;> rfl

/-- The fragments of a condition: they close the last group, and have line feeds from its strings and fields. -/
theorem feedsFrom_condition : ∀ {c : Condition} {p : Expr} {parts : List Fragment} {s s' : σ}, c.toExpr = .ok p →
    fragments mapper entity p s = (.ok parts, s') →
      parts.getLast? = some .groupClose ∧ FeedsFrom p.comparands parts := by
  intro c
  induction c with
  | test o rel v =>
    intro p parts s s' hp h
    obtain ⟨k, hk, hp⟩ := bind_eq_ok hp
    cases hp
    obtain ⟨l, s₁, text, m, hl, htext, hm, rfl⟩ := fragments_relation h
    obtain ⟨name, rfl⟩ := fragments_operand_field hl
    obtain ⟨f, hf, rfl, -⟩ := fragments_constant hm
    rw [comparands_relation, comparands_operand]
    exact ⟨getLast_group _ _ _, .group (.field name) (not_hasFeed_relation htext) (feedsFrom_constant hf)⟩
  | not c ih =>
    intro p parts s s' hp h
    obtain ⟨q, hq, hp⟩ := bind_eq_ok hp
    cases hp
    obtain ⟨more, mid, hmore, h⟩ := Asking.bind_eq_ok h
    cases h
    obtain ⟨hlast, hfeeds⟩ := ih hq hmore
    have hnot : ¬HasFeed " NOT " := by decide
    exact ⟨by simp [List.getLast?_cons, hlast], (FeedsFrom.literal hnot).append hfeeds⟩
  | and c d ihc ihd | or c d ihc ihd =>
    intro p parts s s' hp h
    obtain ⟨q, hq, hp⟩ := bind_eq_ok hp
    obtain ⟨q', hq', hp⟩ := bind_eq_ok hp
    cases hp
    obtain ⟨l, s₁, t, s₂, m, hl, ht, hm, rfl⟩ := groupOf_eq_ok h
    cases ht
    exact ⟨getLast_group _ _ _, .group (ihc hq hl).2 (by decide) (ihd hq' hm).2⟩

end Conditions

/-! ## Line feeds in statements -/

/-- Clauses of a statement with line feeds from the given strings and from the fields they name. Each clause ends
firmly, so a line feed after it stays apart. -/
structure ClausesFrom (strings : List String) (clauses : List Fragment) : Prop where
  feeds : FeedsFrom strings clauses
  firm : ∀ clause ∈ clauses, EndsFirm clause.render

namespace ClausesFrom

theorem nil : ClausesFrom [] [] := ⟨.nil, nofun⟩

theorem append {strings more : List String} {clauses others : List Fragment} (h : ClausesFrom strings clauses)
    (h' : ClausesFrom more others) : ClausesFrom (strings ++ more) (clauses ++ others) :=
  ⟨h.feeds.append h'.feeds, List.forall_mem_append.2 ⟨h.firm, h'.firm⟩⟩

theorem compound {strings : List String} {parts : List Fragment} {last : Fragment} (h : FeedsFrom strings parts)
    (hlast : parts.getLast? = some last) (hfirm : EndsFirm last.render) : ClausesFrom strings [.compound parts] := by
  refine ⟨.single (by rw [Fragment.render, Fragment.fields]; exact h), List.forall_mem_singleton.2 ?_⟩
  obtain ⟨front, rfl⟩ := List.getLast?_eq_some_iff.1 hlast
  rw [Fragment.render, renderAll_append, Fragment.renderAll, Fragment.renderAll, String.append_empty]
  exact hfirm.append _

theorem group {strings : List String} {parts : List Fragment} (h : FeedsFrom strings parts)
    (hlast : parts.getLast? = some .groupClose) : ClausesFrom strings [.compound parts] :=
  compound h hlast ⟨')', by rw [Fragment.render]; rfl, by decide⟩

end ClausesFrom

theorem direction_text {d : Direction} {text : String} (h : directionText? d = some text) :
    ¬HasFeed text ∧ EndsFirm text := by
  cases d with
  | ascending | descending => cases h; exact ⟨by decide, 'c', rfl, by decide⟩
  | unspecified => cases h

section Steps

variable {σ : Type} {mapper : FieldMapper σ} {entity : String}

/-- The strings that a step compares fields with. -/
def Compilation.QueryStep.comparands (step : QueryStep) : List String := step.predicates.flatMap Expr.comparands

theorem clausesFrom_step {step : QueryStep} {t : Step} (hstep : t.Gives step) {c : Clauses} {s s' : σ}
    (h : step.clauses mapper entity s = (.ok c, s')) :
    ClausesFrom step.comparands c.filters ∧ ClausesFrom [] c.orders := by
  cases hstep with
  | @filter cond p hp =>
    obtain ⟨parts, mid, hparts, h⟩ := Asking.bind_eq_ok h
    cases h
    have hbody : fragments mapper entity p s = (.ok parts, s') := hparts
    obtain ⟨hlast, hfeeds⟩ := feedsFrom_condition hp hbody
    -- a filter without fragments would be no clause, but the last one closes a group
    obtain ⟨f, more, rfl⟩ := List.exists_cons_of_ne_nil (List.ne_nil_of_mem (List.mem_of_getLast? hlast))
    have hstrings : (QueryStep.filter (Expr.itLambda p)).comparands = p.comparands := List.append_nil _
    rw [hstrings]
    exact ⟨.group hfeeds hlast, .nil⟩
  | @order keys k _ =>
    obtain ⟨parts, mid, hparts, hend⟩ := Asking.bind_eq_ok h
    have hkey : fragments mapper entity k.operand.toExpr s = (.ok parts, mid) := hparts
    obtain ⟨name, rfl⟩ := fragments_operand_field hkey
    cases hd : directionText? k.direction with
    | none => rw [hd] at hend; cases hend
    | some text =>
      rw [hd] at hend
      cases hend
      obtain ⟨htext, hfirm⟩ := direction_text hd
      have hlast : EndsFirm (Fragment.literal text).render := by rwa [Fragment.render]
      exact ⟨.nil, .compound ((FeedsFrom.field name).append (.literal htext)) rfl hlast⟩
  | select | asOf _ => cases h; exact ⟨.nil, .nil⟩

theorem clausesFrom_steps : ∀ {steps : List QueryStep} {cs : List Clauses} {s s' : σ},
    (∀ step ∈ steps, ∃ t : Step, t.Gives step) → steps.mapM (QueryStep.clauses mapper entity) s = (.ok cs, s') →
      ClausesFrom (steps.flatMap QueryStep.comparands) (cs.flatMap Clauses.filters) ∧
        ClausesFrom [] (cs.flatMap Clauses.orders) := by
  intro steps
  induction steps with
  | nil =>
    intro cs s s' _ h
    rw [List.mapM_nil] at h
    cases h
    exact ⟨.nil, .nil⟩
  | cons step steps ih =>
    intro all s s' hsteps h
    rw [List.mapM_cons] at h
    obtain ⟨c, mid, hc, h⟩ := Asking.bind_eq_ok h
    obtain ⟨cs, last, hcs, h⟩ := Asking.bind_eq_ok h
    cases h
    obtain ⟨t, ht⟩ := hsteps step List.mem_cons_self
    obtain ⟨hfilters, horders⟩ := clausesFrom_step ht hc
    obtain ⟨hfilters', horders'⟩ := ih (fun step hstep => hsteps step (List.mem_cons_of_mem _ hstep)) hcs
    exact ⟨hfilters.append hfilters', horders.append horders'⟩

end Steps

theorem clausesFrom_limit {text : String} {value : Fragment} {strings : List String} (htext : ¬HasFeed text)
    (h : FeedsFrom strings [value]) : ClausesFrom strings [typeClause?.limit text value] := by
  have hgroup := (FeedsFrom.field typeField).group htext h
  rw [List.nil_append] at hgroup
  have hclauses := ClausesFrom.group hgroup (getLast_group [.field typeField] [value] text)
  exact hclauses

/-- The limit to work item types has line feeds from their names. -/
theorem clausesFrom_typeClause (types : List String) : ClausesFrom types (typeClause? types).toList := by
  rcases types with _ | ⟨name, _ | ⟨name', names⟩⟩
  · exact .nil
  · have hvalue : FeedsFrom [name] [.constant name] := @feedsFrom_constant (.string name) _ rfl
    exact clausesFrom_limit (by decide) hvalue
  · have hvalue : FeedsFrom (name :: name' :: names) [.stringList (name :: name' :: names)] :=
      @feedsFrom_constant (.stringList (name :: name' :: names)) _ rfl
    exact clausesFrom_limit (by decide) hvalue

namespace Statement

/-- The fields that a statement names. -/
def fields (q : Statement) : List String :=
  q.select ++ Fragment.fieldsAll q.filters ++ Fragment.fieldsAll q.orders

/-- A keyword and the clauses behind it, if there are any. -/
def partText (keyword separator : String) (clauses : List Fragment) : String :=
  if clauses.isEmpty then "" else keyword ++ separator.intercalate (clauses.map Fragment.render)

/-- The instant at the end of a statement, if there is one. -/
def asOfText : Option Timestamp → String
  | none => ""
  | some t => " ASOF " ++ quote t.statementText

theorem text_eq (q : Statement) :
    q.text = "SELECT " ++ String.intercalate ", " q.select ++ " FROM " ++ source ++
      partText " WHERE " " AND " q.filters ++ partText " ORDER BY " ", " q.orders ++ asOfText q.asOf := by
  unfold text
  cases q.asOf <;> rfl

end Statement

open Statement (partText asOfText text_eq)

theorem hasFeed_renderAll : ∀ clauses : List Fragment,
    HasFeed (Fragment.renderAll clauses) ↔ AnyFeed (clauses.map Fragment.render)
  | [] => by simp [Fragment.renderAll, HasFeed]
  | f :: clauses => by simp [Fragment.renderAll, hasFeed_renderAll clauses]

section Parts

variable {keyword separator : String} {strings : List String} {clauses : List Fragment}

theorem hasFeed_partText (hkeyword : ¬HasFeed keyword) (hseparator : ¬HasFeed separator)
    (h : ClausesFrom strings clauses) :
    HasFeed (partText keyword separator clauses) ↔ AnyFeed (strings ++ Fragment.fieldsAll clauses) := by
  have hfeeds := h.feeds
  rw [FeedsFrom, hasFeed_renderAll] at hfeeds
  rw [← hfeeds, partText]
  cases clauses with
  | nil => simp [HasFeed]
  | cons f clauses => simp [hkeyword, hasFeed_intercalate hseparator]

theorem endsFirm_partText (h : ClausesFrom strings clauses) {s : String} (hs : EndsFirm s) :
    EndsFirm (s ++ partText keyword separator clauses) := by
  unfold partText
  cases clauses with
  | nil => simpa using hs
  | cons f clauses =>
    have hclauses : ∀ text ∈ (f :: clauses).map Fragment.render, EndsFirm text := List.forall_mem_map.2 h.firm
    exact ((endsFirm_intercalate (by simp) hclauses).append keyword).append s

end Parts

theorem not_hasFeed_asOfText (t : Option Timestamp) : ¬HasFeed (asOfText t) := by
  have hasOf : ¬HasFeed " ASOF " := by decide
  cases t with
  | none => show ¬HasFeed ""; decide
  | some t =>
    rw [asOfText, hasFeed_append, hasFeed_quote, not_or]
    exact ⟨hasOf, not_hasFeed_statementText t⟩

theorem endsFirm_asOfText (t : Option Timestamp) {s : String} (hs : EndsFirm s) : EndsFirm (s ++ asOfText t) := by
  cases t with
  | none => simpa [asOfText] using hs
  | some t =>
    have hquote : EndsFirm (quote t.statementText) :=
      ⟨'\'', by rw [quote, String.toList_ofList]; exact List.getLast?_concat, by decide⟩
    exact (hquote.append " ASOF ").append s

section Statements

variable {q : Statement} {strings : List String}

/-- The text of a statement has line feeds from the strings of its filters and from its fields. -/
theorem hasFeed_text (hfilters : ClausesFrom strings q.filters) (horders : ClausesFrom [] q.orders) :
    HasFeed q.text ↔ AnyFeed (strings ++ q.fields) := by
  have hselect : ¬HasFeed "SELECT " := by decide
  have hfrom : ¬HasFeed " FROM " := by decide
  have hsource : ¬HasFeed Statement.source := by decide
  have hcomma : ¬HasFeed ", " := by decide
  have hwhere := @hasFeed_partText " WHERE " " AND " _ _ (by decide) (by decide) hfilters
  have horder := @hasFeed_partText " ORDER BY " ", " _ _ (by decide) hcomma horders
  rw [text_eq, hasFeed_append, hasFeed_append, hasFeed_append, hwhere, horder, or_iff_left (not_hasFeed_asOfText _)]
  simp only [hasFeed_append, hasFeed_intercalate hcomma, hselect, hfrom, hsource, Statement.fields, anyFeed_append,
    List.nil_append, false_or, or_false]
  rw [or_left_comm, or_assoc, or_assoc]

theorem endsFirm_text (hfilters : ClausesFrom strings q.filters) (horders : ClausesFrom [] q.orders) :
    EndsFirm q.text := by
  have hsource : EndsFirm Statement.source := ⟨'s', rfl, by decide⟩
  rw [text_eq]
  exact endsFirm_asOfText _ (endsFirm_partText horders (endsFirm_partText hfilters (hsource.append _)))

end Statements

/-! ## Batches -/

namespace Batch

variable {σ : Type} {mapper : FieldMapper σ} {mode : ProjectionMode}

/-- A query text that compiles, and what it compiles to. -/
structure Compiled (mapper : FieldMapper σ) (mode : ProjectionMode) where
  source : String
  /-- The mapper's state when the text is compiled. -/
  before : σ
  query : Expr
  output : Output
  parsed : parse source = .ok query
  compiled : (compileText mapper mode source before).result = .ok output

namespace Compiled

/-- The work item types that a compiled query is limited to. -/
def types (c : Compiled mapper mode) : List String :=
  match c.output.statement.entity with
  | some entity => mapper.typeRestriction (compileText mapper mode c.source c.before).fields entity
  | none => []

/-- The texts that a compiled query takes over as they are: the strings that the query compares fields with, the
fields of the statement and the work item types. -/
def verbatim (c : Compiled mapper mode) : List String :=
  c.query.predicates.flatMap Expr.comparands ++ c.output.statement.fields ++ c.types

/-- A text that compiles is compiled as its query, and gives the text of the statement. -/
theorem compile_eq_ok (c : Compiled mapper mode) :
    (compile mapper mode c.query c.before).result = .ok c.output.statement ∧
      (compile mapper mode c.query c.before).fields = (compileText mapper mode c.source c.before).fields ∧
      c.output.text = c.output.statement.text := by
  have hcompiled := c.compiled
  unfold compileText at hcompiled ⊢
  rw [c.parsed] at hcompiled ⊢
  dsimp only at hcompiled ⊢
  cases hr : (compile mapper mode c.query c.before).result with
  | error err => rw [hr] at hcompiled; cases hcompiled
  | ok q =>
    rw [hr] at hcompiled
    have houtput : Output.ofStatement q = c.output := Except.ok.inj hcompiled
    rw [← houtput]
    exact ⟨rfl, rfl, rfl⟩

/-- The clauses of a compiled query take line feeds from its strings, its types and its fields. -/
theorem clausesFrom (c : Compiled mapper mode) :
    ClausesFrom (c.query.predicates.flatMap Expr.comparands ++ c.types) c.output.statement.filters ∧
      ClausesFrom [] c.output.statement.orders := by
  obtain ⟨hresult, hfields, -⟩ := c.compile_eq_ok
  obtain ⟨p, -, hexpr⟩ := parse_ok_iff.1 c.parsed
  obtain ⟨steps, hquery, hsteps⟩ := toExpr_eq_queryOf hexpr
  have hgives : ∀ step ∈ steps, ∃ t : Step, t.Gives step := fun step hstep =>
    (hsteps step hstep).imp fun t h => h.2
  have hplain : ∀ step ∈ steps, step.IsPlain := fun step hstep => (hgives step hstep).elim fun t h => h.isPlain
  -- the statement is put together from the steps
  rcases htranslation : translation mapper mode p.entity steps c.before with ⟨result, after⟩
  obtain ⟨s, hs, hafter⟩ := compilation_queryOf mapper mode p.entity hplain c.before htranslation
  obtain ⟨hcompile, hlast⟩ := compile_eq hs
  rw [hquery, hcompile] at hresult
  subst hresult
  obtain ⟨cs, mid, hcs, hend⟩ := Asking.bind_eq_ok htranslation
  obtain ⟨-, hentity, hfilters, horders⟩ := statementOf_eq_ok hend
  obtain ⟨hown, hown'⟩ := clausesFrom_steps hgives hcs
  have htypes : c.types = mapper.typeRestriction after p.entity := by
    rw [types, hentity, ← hfields, hquery, hlast, hafter]
  have hstrings : c.query.predicates.flatMap Expr.comparands = steps.flatMap QueryStep.comparands := by
    rw [hquery, predicates_queryOf, List.flatMap_assoc]
    rfl
  rw [hstrings, hfilters, horders, htypes]
  exact ⟨hown.append (clausesFrom_typeClause _), hown'⟩

theorem hasFeed_text_iff (c : Compiled mapper mode) : HasFeed c.output.text ↔ AnyFeed c.verbatim := by
  rw [c.compile_eq_ok.2.2, hasFeed_text c.clausesFrom.1 c.clausesFrom.2, verbatim]
  simp only [anyFeed_append]
  rw [or_right_comm]

theorem endsFirm_text (c : Compiled mapper mode) : EndsFirm c.output.text := by
  rw [c.compile_eq_ok.2.2]
  exact WorkItemQuery.endsFirm_text c.clausesFrom.1 c.clausesFrom.2

end Compiled

theorem render_eq (format : OutputFormat) (outputs : List Output) :
    render format outputs = String.join ((outputs.map (Output.render format)).map (· ++ "\n")) := by
  rw [render, List.map_map]
  rfl

theorem endsFirm_json (o : Output) : EndsFirm o.toJson.text := by
  rw [Output.toJson, Json.text]
  exact EndsFirm.append ⟨'\x7d', rfl, by decide⟩ _

theorem anyFeed_outputs (queries : List (Compiled mapper mode)) :
    AnyFeed ((queries.map Compiled.output).map (Output.render .wiql)) ↔ ∃ c ∈ queries, AnyFeed c.verbatim := by
  induction queries with
  | nil => simp
  | cons c queries ih =>
    have hfirst : HasFeed (c.output.render .wiql) ↔ AnyFeed c.verbatim := c.hasFeed_text_iff
    rw [List.map_cons, List.map_cons, anyFeed_cons, ih, hfirst]
    simp

/-- The output of a batch has one line for every query: in JSON always, and as statements if and only if no query
takes over a line feed. A line feed in a statement makes one line more. -/
theorem lines_render (queries : List (Compiled mapper mode)) :
    let outputs := queries.map Compiled.output
    lines (render .json outputs).toList = outputs.map (fun o => o.toJson.text.toList) ∧
      (lines (render .wiql outputs).toList = outputs.map (fun o => o.text.toList) ↔
        ∀ c ∈ queries, ¬AnyFeed c.verbatim) ∧
      (lines (render .wiql outputs).toList).length =
        queries.length + (outputs.flatMap fun o => o.text.toList).count '\n' := by
  intro outputs
  have hfirm : ∀ s ∈ outputs.map (Output.render .wiql), EndsFirm s := by
    simp only [outputs, List.map_map, List.forall_mem_map]
    exact fun c _ => c.endsFirm_text
  have hfirm' : ∀ s ∈ outputs.map (Output.render .json), EndsFirm s :=
    List.forall_mem_map.2 fun o _ => endsFirm_json o
  have hjson : ¬AnyFeed (outputs.map (Output.render .json)) := by
    rintro ⟨s, hs, hfeed⟩
    obtain ⟨o, -, rfl⟩ := List.mem_map.1 hs
    exact not_hasFeed_json o.toJson hfeed
  rw [render_eq, render_eq, length_lines_join]
  refine ⟨?_, ?_, ?_⟩
  · rw [(lines_join_eq_iff hfirm').2 hjson, List.map_map]
    rfl
  · have htexts : (outputs.map (Output.render .wiql)).map String.toList = outputs.map fun o => o.text.toList := by
      rw [List.map_map]
      rfl
    rw [← htexts, lines_join_eq_iff hfirm, anyFeed_outputs]
    simp only [not_exists, not_and]
  · have htexts : (outputs.map (Output.render .wiql)).flatMap String.toList = outputs.flatMap fun o => o.text.toList :=
      List.flatMap_map ..
    rw [htexts, List.length_map, List.length_map]

/-- A string may hold a line feed, and the statement of the query then has two lines. -/
theorem lines_render_string :
    let r := Registry.ofMappings [EntityMapping.new "Task" |>.property "Title" "Title"]
    ∃ c : Compiled FieldMapper.registry .defaultFields, c.source = "from Task | where Title = 'a\nb'" ∧
      c.before = r ∧ c.verbatim.head? = some "a\nb" ∧
      lines (render .json [c.output]).toList = [c.output.toJson.text.toList] ∧
      lines (render .wiql [c.output]).toList ≠ [c.output.text.toList] ∧
      (lines (render .wiql [c.output]).toList).length = 2 := by
  intro r
  let p : Pipeline := ⟨"Task", [.filter (.test (.name "Title") (.compare .equal) (.string "a\nb"))]⟩
  have hp : Pipeline.ofText "from Task | where Title = 'a\nb'".toList = .ok p := by decide +kernel
  let e := queryOf "Task" [.filter (Expr.itLambda
    (.binary .equal (Expr.field "Title") (.constant (.string "a\nb"))))]
  have he : parse "from Task | where Title = 'a\nb'" = .ok e := parse_ok_iff.2 ⟨p, hp, rfl⟩
  obtain ⟨q, hq, hcount⟩ : ∃ q, (compile .registry .defaultFields e r).result = .ok q ∧
    q.text.toList.count '\n' = 1 := ⟨_, rfl, by decide +kernel⟩
  have hcompiled : (compileText .registry .defaultFields "from Task | where Title = 'a\nb'" r).result =
      .ok (.ofStatement q) := by
    unfold compileText
    rw [he]
    dsimp only
    rw [hq]
  let c : Compiled FieldMapper.registry .defaultFields := ⟨_, r, e, .ofStatement q, he, hcompiled⟩
  obtain ⟨hjson, hwiql, hlength⟩ := lines_render [c]
  have hfeed : AnyFeed c.verbatim := ⟨"a\nb", List.mem_cons_self, by decide⟩
  refine ⟨c, rfl, rfl, rfl, hjson, fun h => hwiql.1 h c List.mem_cons_self hfeed, ?_⟩
  rw [List.map_singleton, List.flatMap_singleton] at hlength
  exact hlength.trans (by rw [show c.output.text.toList.count '\n' = 1 from hcount]; rfl)

end Batch

end WorkItemQuery
