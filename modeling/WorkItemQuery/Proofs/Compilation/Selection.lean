/-
The select list of a query that says what it wants. The names that its projections ask for, in one list and each name
kept where it comes first, are looked up in this order; the first name that has no field ends the selection with the
error about it. A query that asks for no name gets the default fields. So only the list of names matters, and not even
a name that has been asked for before: a projection may be split in two, one of all fields may be put anywhere, and a
name may be asked for again, without a change of the selection or of its error.
-/
import WorkItemQuery.Proofs.Compilation.Declarative
import Mathlib.Data.List.Basic
import Mathlib.Data.List.Induction
import Mathlib.Logic.Relation

namespace WorkItemQuery

namespace FieldMapper

variable {σ : Type}

/-- The state of a mapper that has been asked for some properties of an entity, one after the other. -/
def after (mapper : FieldMapper σ) (entity : String) (names : List String) (fields : σ) : σ :=
  names.foldl (fun fields name => (mapper.resolve entity name fields).2) fields

/-- What a mapper answers when it is asked for some properties of an entity, one after the other. -/
def answers (mapper : FieldMapper σ) (entity : String) : List String → σ → List (Except UnknownField String)
  | [], _ => []
  | name :: names, fields =>
    let (answer, fields) := mapper.resolve entity name fields
    answer :: mapper.answers entity names fields

section Asked

variable {mapper : FieldMapper σ} {entity name : String} {fields next : σ} {answer : Except UnknownField String}

theorem after_cons (h : mapper.resolve entity name fields = (answer, next)) (names : List String) :
    mapper.after entity (name :: names) fields = mapper.after entity names next := by
  simp [after, h]

theorem answers_cons (h : mapper.resolve entity name fields = (answer, next)) (names : List String) :
    mapper.answers entity (name :: names) fields = answer :: mapper.answers entity names next := by
  simp [answers, h]

end Asked

end FieldMapper

namespace Compilation

open Walk

variable {σ : Type}

/-! ## The names that are asked for -/

/-- The names that a projection asks for. -/
def requestedBy : Projection → List String
  | .all => []
  | .fields names => names

/-- The names of a list that do not stand before in it: each name once, where it comes first. -/
def firstOccurrences (names : List String) : List String :=
  names.zipIdx.filterMap fun (name, i) => if name ∈ names.take i then none else some name

/-- One more name is kept if it is not there yet. -/
theorem firstOccurrences_concat (names : List String) (name : String) :
    firstOccurrences (names ++ [name]) = firstOccurrences names ++ if name ∈ names then [] else [name] := by
  unfold firstOccurrences
  rw [List.zipIdx_append, List.filterMap_append]
  congr 1
  · refine List.filterMap_congr fun ⟨other, i⟩ hmem => ?_
    have hi : i < names.length := by simpa using (List.mem_zipIdx hmem).2.1
    simp only [List.take_append_of_le_length (Nat.le_of_lt hi)]
  · by_cases hname : name ∈ names <;> simp [hname]

theorem mem_firstOccurrences {name : String} {names : List String} : name ∈ firstOccurrences names ↔ name ∈ names := by
  induction names using List.reverseRecOn with
  | nil => rfl
  | append_singleton names other ih =>
    rw [firstOccurrences_concat, List.mem_append, List.mem_append, ih]
    by_cases hother : other ∈ names
    · -- the name that is not kept stands before
      have hkept : name ∈ names ∨ name = other ↔ name ∈ names :=
        ⟨fun h => h.elim id fun heq => heq ▸ hother, .inl⟩
      simp [hother, hkept]
    · simp [hother]

/-- Asking for one name after the other keeps each where it comes first. -/
theorem foldl_request (names : List String) : names.foldl request [] = firstOccurrences names := by
  induction names using List.reverseRecOn with
  | nil => rfl
  | append_singleton names name ih =>
    rw [List.foldl_concat, ih, firstOccurrences_concat, request]
    by_cases hname : name ∈ names <;> simp [mem_firstOccurrences, hname]

/-- Asking projection by projection is asking for all their names in a row. -/
theorem foldl_requestAll (names : List String) (projections : List Projection) :
    projections.foldl requestAll names = (projections.flatMap requestedBy).foldl request names := by
  induction projections generalizing names with
  | nil => rfl
  | cons p projections ih =>
    rw [List.foldl_cons, ih, List.flatMap_cons, List.foldl_append]
    cases p <;> rfl

theorem requested_eq (projections : List Projection) :
    requested projections = firstOccurrences (projections.flatMap requestedBy) := by
  rw [requested, foldl_requestAll, foldl_request]

/-- A name that stands before is not kept again. -/
theorem firstOccurrences_again {name : String} {before : List String} (hname : name ∈ before) (more : List String) :
    firstOccurrences (before ++ name :: more) = firstOccurrences (before ++ more) := by
  have hrequest : request (firstOccurrences before) name = firstOccurrences before :=
    if_pos (List.contains_iff_mem.2 (mem_firstOccurrences.2 hname))
  rw [← foldl_request, ← foldl_request, List.foldl_append, List.foldl_append, List.foldl_cons, foldl_request, hrequest]

/-! ## Projections that ask for the same -/

/-- A change of the projections that makes no difference to what is asked for. -/
inductive Regroups : List Projection → List Projection → Prop
  /-- One projection is split in two. -/
  | split (before after : List Projection) (names more : List String) :
    Regroups (before ++ .fields (names ++ more) :: after) (before ++ .fields names :: .fields more :: after)
  /-- A projection of all fields is put anywhere. -/
  | all (before after : List Projection) : Regroups (before ++ after) (before ++ .all :: after)
  /-- A name that has been asked for is asked for again. -/
  | again {before : List Projection} {names : List String} {name : String}
      (hname : name ∈ before.flatMap requestedBy ++ names) (more : List String) (after : List Projection) :
    Regroups (before ++ .fields (names ++ more) :: after) (before ++ .fields (names ++ name :: more) :: after)

theorem Regroups.requested_eq {projections others : List Projection} (h : Regroups projections others) :
    requested projections = requested others := by
  rw [Compilation.requested_eq, Compilation.requested_eq]
  cases h with
  | split before after names more => simp [requestedBy]
  | all before after => simp [requestedBy]
  | again hname more after =>
    simpa [requestedBy] using (firstOccurrences_again hname (more ++ after.flatMap requestedBy)).symm

theorem requested_eq_of_regroups {projections others : List Projection}
    (h : Relation.EqvGen Regroups projections others) : requested projections = requested others := by
  induction h with
  | rel _ _ h => exact h.requested_eq
  | refl _ => rfl
  | symm _ _ _ ih => exact ih.symm
  | trans _ _ _ _ _ ih ih' => exact ih.trans ih'

theorem selectFields_eq_of_requested {projections others : List Projection}
    (h : requested projections = requested others) (mapper : FieldMapper σ) (mode : ProjectionMode) (entity : String) :
    selectFields mapper mode entity projections = selectFields mapper mode entity others := by
  unfold selectFields
  rw [h]

/-! ## Looking up -/

/-- How a look-up of names can end: all of them have a field, or the first that has none ends it. -/
inductive LooksUp (mapper : FieldMapper σ) (entity : String) (names : List String) (s : State σ) :
    Except CompileError (List String) × State σ → Prop
  | fields {fields : List String} (h : mapper.answers entity names s.fields = fields.map .ok) :
    LooksUp mapper entity names s (.ok fields, { s with fields := mapper.after entity names s.fields })
  | unknown {before others fields : List String} {name : String} {e : UnknownField}
      (hnames : names = before ++ name :: others) (hbefore : mapper.answers entity before s.fields = fields.map .ok)
      (hname : (mapper.resolve entity name (mapper.after entity before s.fields)).1 = .error e) :
    LooksUp mapper entity names s
      (.error (.unknownField e), { s with fields := mapper.after entity (before ++ [name]) s.fields })

theorem LooksUp.cons {mapper : FieldMapper σ} {entity name field : String} {s : State σ} {next : σ}
    (hask : mapper.resolve entity name s.fields = (.ok field, next)) {names : List String}
    {r : Except CompileError (List String) × State σ} (h : LooksUp mapper entity names { s with fields := next } r) :
    LooksUp mapper entity (name :: names) s (r.1.map (field :: ·), r.2) := by
  cases h with
  | @fields fields h =>
    rw [← FieldMapper.after_cons hask]
    refine .fields ?_
    rw [FieldMapper.answers_cons hask, h]
    rfl
  | @unknown before others fields missing e hnames hbefore hname =>
    rw [← FieldMapper.after_cons hask]
    rw [← FieldMapper.after_cons hask] at hname
    have hnames' : name :: names = (name :: before) ++ missing :: others := by
      rw [hnames, List.cons_append]
    have hbefore' : mapper.answers entity (name :: before) s.fields = (field :: fields).map .ok := by
      rw [FieldMapper.answers_cons hask, hbefore]
      rfl
    exact .unknown hnames' hbefore' hname

/-- The look-ups in turn, by the names that are left. -/
theorem looksUp_lookupAll (mapper : FieldMapper σ) (entity : String) : ∀ (names : List String) (s : State σ),
    LooksUp mapper entity names s (lookupAll mapper entity names s)
  | [], s => by
    have hnone : mapper.answers entity [] s.fields = ([] : List String).map .ok := rfl
    exact .fields hnone
  | name :: names, s => by
    rcases hask : mapper.resolve entity name s.fields with ⟨e | field, next⟩
    · have hlookup : lookup mapper entity name s = (.error (.unknownField e), { s with fields := next }) := by
        simp only [lookup, hask]
      have hnext : next = mapper.after entity ([] ++ [name]) s.fields := (FieldMapper.after_cons hask []).symm
      rw [lookupAll, Walk.bind_error hlookup, hnext]
      have hnone : mapper.answers entity [] s.fields = ([] : List String).map .ok := rfl
      exact .unknown (List.nil_append (name :: names)).symm hnone (congrArg Prod.fst hask)
    · have hlookup : lookup mapper entity name s = (.ok field, { s with fields := next }) := by
        simp only [lookup, hask]
      rw [lookupAll, Walk.bind_ok hlookup]
      have hmore := (looksUp_lookupAll mapper entity names { s with fields := next }).cons hask
      rcases hr : lookupAll mapper entity names { s with fields := next } with ⟨e | more, last⟩
      · rw [hr] at hmore
        rw [Walk.bind_error hr]
        exact hmore
      · rw [hr] at hmore
        rw [Walk.bind_ok hr]
        exact hmore

/-- The selection of a query that says what it wants, and the changes of the query that make no difference to it. -/
theorem selectFields_explicit (mapper : FieldMapper σ) (entity : String) (projections : List Projection)
    (s : State σ) :
    let names := firstOccurrences (projections.flatMap requestedBy)
    let select := selectFields mapper .explicit entity
    (if names = [] then select projections s = (.ok (mapper.defaultFields s.fields entity), s)
      else LooksUp mapper entity names s (select projections s)) ∧
    (∀ others, others.flatMap requestedBy = projections.flatMap requestedBy → select others = select projections) ∧
    ∀ others, Relation.EqvGen Regroups projections others → select others = select projections := by
  intro names select
  have hnames : requested projections = names := requested_eq projections
  refine ⟨?_, ?_, ?_⟩
  · show if names = [] then selectFields mapper .explicit entity projections s = _
      else LooksUp mapper entity names s (selectFields mapper .explicit entity projections s)
    unfold selectFields
    rw [hnames]
    cases names with
    | nil => exact rfl
    | cons name more => exact looksUp_lookupAll mapper entity (name :: more) s
  · intro others h
    refine selectFields_eq_of_requested ?_ mapper .explicit entity
    rw [requested_eq, requested_eq, h]
  · intro others h
    exact selectFields_eq_of_requested (requested_eq_of_regroups h).symm mapper .explicit entity

/-- The third name has no field, so the fourth is not looked up; and one projection in place of three ends alike. -/
theorem selectFields_explicit_task :
    let mapper : FieldMapper Nat :=
      ⟨fun entity name n => (if name = "Rank" then .error ⟨entity, name⟩ else .ok name, n + 1), fun _ _ => [],
        fun _ _ => []⟩
    let projections := [.fields ["Title"], .all, .fields ["Id", "Title", "Rank", "Done"]]
    let others := [.fields ["Title", "Id", "Rank", "Done"]]
    let select := selectFields mapper .explicit "Task"
    Relation.EqvGen Regroups projections others ∧ select others = select projections ∧
      LooksUp mapper "Task" ["Title", "Id", "Rank", "Done"] { fields := 0 } (select projections { fields := 0 }) ∧
      select projections { fields := 0 } = (.error (.unknownField ⟨"Task", "Rank"⟩), { fields := 3 }) := by
  intro mapper projections others select
  have hsplit : Regroups others [.fields ["Title"], .fields ["Id", "Rank", "Done"]] :=
    .split [] [] ["Title"] ["Id", "Rank", "Done"]
  have hall : Regroups [.fields ["Title"], .fields ["Id", "Rank", "Done"]]
      [.fields ["Title"], .all, .fields ["Id", "Rank", "Done"]] := .all [.fields ["Title"]] _
  have hbefore : "Title" ∈ [Projection.fields ["Title"], .all].flatMap requestedBy ++ ["Id"] := by
    simp [requestedBy]
  have hagain : Regroups [.fields ["Title"], .all, .fields ["Id", "Rank", "Done"]] projections :=
    .again hbefore ["Rank", "Done"] []
  have hsame : Relation.EqvGen Regroups projections others :=
    .symm _ _ (.trans _ _ _ (.rel _ _ hsplit) (.trans _ _ _ (.rel _ _ hall) (.rel _ _ hagain)))
  obtain ⟨hselect, -, hregroups⟩ := selectFields_explicit mapper "Task" projections { fields := 0 }
  exact ⟨hsame, hregroups others hsame, hselect, rfl⟩

end Compilation

end WorkItemQuery
