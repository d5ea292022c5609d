/-
The default fields, asked for in three ways: by the names of the properties that are selected by default, by all
fields, and by the mode that selects the default fields whatever is asked for. If no two properties of the entity have
the same name, the three compile to statements with the same select list, which differ in nothing but the projections
that they record; and if one fails, all fail with the same error, which is that of the walk. Projections are recorded
on the walk and not read by it, so a walk over the query with other projections ends in the same way.
-/
import WorkItemQuery.Proofs.Compilation.Simulation

namespace WorkItemQuery

open Compilation Walk Log

/-! ## Queries with one projection -/

/-- The query with one projection in place of each of its own. -/
def Expr.selecting (p : Projection) (e : Expr) : Expr := e.reprojecting fun _ => p

/-- The statement with one projection in place of each of its own. -/
def Statement.selecting (p : Projection) (q : Statement) : Statement := q.reprojecting fun _ => p

theorem Expr.elementType_selecting (p : Projection) (e : Expr) : (e.selecting p).elementType = e.elementType :=
  elementType_reprojecting _ e

namespace Compilation

variable {σ : Type} {p : Projection}

def State.selecting (p : Projection) (s : State σ) : State σ := { s with statement := s.statement.selecting p }

theorem projections_selecting (p : Projection) (s : State σ) :
    (s.selecting p).statement.projections = s.statement.projections.map fun _ => p := rfl

theorem Alike.eq_selecting {about : String → Prop} {s t : State σ} (h : Alike about Eq (fun _ => p) s t) :
    t = s.selecting p := by
  obtain ⟨fields, statement, pending, notices⟩ := s
  obtain ⟨rfl, hstatement, hpending, hnotices, -⟩ := h
  rw [State.selecting, Statement.selecting, ← hstatement, ← hpending, ← hnotices]

theorem entityOf_selecting {root : Option String} {entity : String} {s : State σ}
    (h : entityOf root s = (.ok entity, s)) : entityOf root (s.selecting p) = (.ok entity, s.selecting p) := by
  have hsame : (s.selecting p).statement.entity = s.statement.entity := rfl
  unfold entityOf at h ⊢
  rw [hsame]
  split at h <;> cases h <;> rfl

end Compilation

/-! ## Names and fields of an entity -/

namespace EntityMapping

/-- The names of the properties that are selected by default. -/
def defaultNames (m : EntityMapping) : List String := (m.properties.filter (·.isDefault)).map (·.property)

/-- No two properties of the entity have the same name. -/
def HasDistinctNames (m : EntityMapping) : Prop := (m.properties.map (·.property)).Nodup

theorem HasDistinctNames.find?_eq {m : EntityMapping} (h : m.HasDistinctNames) {p : PropertyMapping}
    (hp : p ∈ m.properties) : m.find? p.property = some p := by
  unfold find?
  rcases hfind : m.properties.find? (·.property == p.property) with _ | found
  · rw [List.find?_eq_none] at hfind
    simpa using hfind p hp
  · have hname : found.property = p.property := by simpa using List.find?_some hfind
    rw [hfind, List.inj_on_of_nodup_map h (List.mem_of_find?_eq_some hfind) hp hname]

theorem HasDistinctNames.nodup_defaultNames {m : EntityMapping} (h : m.HasDistinctNames) : m.defaultNames.Nodup :=
  List.Nodup.sublist (List.filter_sublist.map _) h

end EntityMapping

namespace Compilation

variable {r : Registry} {entity : String} {m : EntityMapping}

theorem resolve_of_mem (hm : r.entity? entity = some m) (hnames : m.HasDistinctNames) {p : PropertyMapping}
    (hp : p ∈ m.properties) : r.resolve entity p.property = .ok p.field := by
  unfold Registry.resolve
  rw [hm, Option.bind_some, hnames.find?_eq hp]

/-- Properties that are found are looked up one after the other. -/
theorem lookupAll_registry {s : State Registry} : ∀ {properties : List PropertyMapping},
    (∀ p ∈ properties, s.fields.resolve entity p.property = .ok p.field) →
    lookupAll .registry entity (properties.map (·.property)) s = (.ok (properties.map (·.field)), s)
  | [], _ => rfl
  | p :: properties, h => by
    obtain ⟨hp, hmore⟩ := List.forall_mem_cons.1 h
    have hlookup : lookup .registry entity p.property s = (.ok p.field, s) := by
      unfold lookup
      rw [show FieldMapper.registry.resolve entity p.property s.fields = (.ok p.field, s.fields) from Prod.ext hp rfl]
    rw [List.map_cons, lookupAll, Walk.bind_ok hlookup, Walk.bind_ok (lookupAll_registry hmore)]
    rfl

/-- Names that are new are asked for as they are. -/
theorem foldl_request_of_nodup : ∀ {more names : List String}, (names ++ more).Nodup →
    more.foldl request names = names ++ more
  | [], names, _ => (List.append_nil names).symm
  | name :: more, names, h => by
    have hname : ¬names.contains name = true := by
      rw [List.contains_iff_mem]
      exact fun hmem => (List.nodup_append.1 h).2.2 name hmem name List.mem_cons_self rfl
    rw [← List.singleton_append, ← List.append_assoc] at h
    rw [List.foldl_cons, request, if_neg hname, foldl_request_of_nodup h, List.append_assoc, List.singleton_append]

/-- Names that have been asked for make no difference. -/
theorem foldl_request_of_subset {names : List String} : ∀ {more : List String}, more ⊆ names →
    more.foldl request names = names
  | [], _ => rfl
  | name :: more, h => by
    obtain ⟨hname, hmore⟩ := List.cons_subset.1 h
    rw [List.foldl_cons, request, if_pos (List.contains_iff_mem.2 hname), foldl_request_of_subset hmore]

/-- Names that are asked for once or more, always in the same order. -/
theorem requested_copies {names : List String} (h : names.Nodup) (projection : Projection)
    (projections : List Projection) :
    requested ((projection :: projections).map fun _ => .fields names) = names := by
  have hfirst : requestAll [] (.fields names) = names := foldl_request_of_nodup h
  have hagain : requestAll names (.fields names) = names := foldl_request_of_subset (List.Subset.refl names)
  rw [requested, List.map_cons, List.foldl_cons, hfirst]
  induction projections with
  | nil => rfl
  | cons p projections ih => rw [List.map_cons, List.foldl_cons, hagain, ih]

theorem requested_all (projections : List Projection) : requested (projections.map fun _ => .all) = [] := by
  unfold requested
  induction projections with
  | nil => rfl
  | cons p projections ih => exact ih

/-! ## Three ways to select the default fields -/

/-- From this state on, the selection is that of the default fields, and changes no part of the statement. -/
def SelectsDefaults (mode : ProjectionMode) (entity : String) (s : State Registry) : Prop :=
  ∃ s', selection .registry mode entity s = (.ok (s.fields.defaultFields entity), s') ∧ s'.statement = s.statement ∧
    s'.fields = s.fields

theorem selectsDefaults_of_mode (s : State Registry) : SelectsDefaults .defaultFields entity s := by
  unfold SelectsDefaults selection selectFields
  cases requested s.statement.projections with
  | nil => exact ⟨s, rfl, rfl, rfl⟩
  | cons name names => exact ⟨_, rfl, rfl, rfl⟩

theorem selectsDefaults_all (s : State Registry) : SelectsDefaults .explicit entity (s.selecting .all) := by
  have hnone : requested (s.selecting .all).statement.projections = [] := requested_all _
  refine ⟨s.selecting .all, ?_, rfl, rfl⟩
  unfold selection selectFields
  rw [hnone]
  rfl

theorem selectsDefaults_names {s : State Registry} (hm : s.fields.entity? entity = some m)
    (hnames : m.HasDistinctNames) (hdefault : m.defaultNames ≠ []) :
    SelectsDefaults .explicit entity (s.selecting (.fields m.defaultNames)) := by
  have hdefaults : s.fields.defaultFields entity = m.defaultFields := by
    simp only [Registry.defaultFields, hm]
  refine ⟨s.selecting (.fields m.defaultNames), ?_, rfl, rfl⟩
  show selection .registry .explicit entity _ = (.ok (s.fields.defaultFields entity), _)
  unfold selection
  rcases hprojections : s.statement.projections with _ | ⟨projection, projections⟩
  · -- nothing is projected, so nothing is asked for
    have hnone : (s.selecting (.fields m.defaultNames)).statement.projections = [] := by
      rw [projections_selecting, hprojections, List.map_nil]
    rw [hnone]
    rfl
  · have hasked : requested (s.selecting (.fields m.defaultNames)).statement.projections = m.defaultNames := by
      rw [projections_selecting, hprojections]
      exact requested_copies hnames.nodup_defaultNames projection projections
    have hlookup : selectFields .registry .explicit entity
        (s.selecting (.fields m.defaultNames)).statement.projections =
        lookupAll .registry entity m.defaultNames := by
      obtain ⟨name, names, hcons⟩ := List.exists_cons_of_ne_nil hdefault
      unfold selectFields
      rw [hasked, hcons]
    rw [hlookup, hdefaults]
    exact lookupAll_registry fun p hp => resolve_of_mem hm hnames (List.mem_of_mem_filter hp)

/-! ## The statement -/

/-- The walk that a compilation begins with. -/
def walked (e : Expr) (r : Registry) : Except CompileError Unit × State Registry :=
  visit .registry e.elementType e { fields := r, notices := [.compiling e.elementType] }

/-- The registry is the same after each question. -/
theorem registry_simulates_self (about : String → Prop) :
    FieldMapper.registry.Simulates about (fun a b => a = r ∧ b = r) .registry where
  resolve := by rintro _ _ - _ _ ⟨rfl, rfl⟩; exact ⟨rfl, rfl, rfl⟩
  defaultFields := by rintro _ - _ _ ⟨rfl, rfl⟩; rfl
  typeRestriction := by rintro _ - _ _ ⟨rfl, rfl⟩; rfl

/-- A walk with one projection throughout ends as the walk does. It leaves the registry as it is, and a statement is
about an entity that a table of the query is of. -/
theorem walked_alike (r : Registry) (p : Projection) (about : String → Prop) {e : Expr}
    (htables : ∀ entity ∈ e.tables, about entity) :
    (walked e r).1 = (walked (e.selecting p) r).1 ∧
      Alike about (fun a b => a = r ∧ b = r) (fun _ => p) (walked e r).2 (walked (e.selecting p) r).2 := by
  have hroot : ∀ entity ∈ e.elementType, about entity := fun entity hentity =>
    htables entity (Expr.mem_tables_of_elementType e hentity)
  unfold walked
  rw [Expr.elementType_selecting]
  exact matches_visit (registry_simulates_self about) hroot e htables _ _
    ⟨⟨rfl, rfl⟩, rfl, rfl, rfl, fun _ he => by cases he⟩

theorem walked_selecting (p : Projection) (e : Expr) (r : Registry) :
    walked (e.selecting p) r = ((walked e r).1, (walked e r).2.selecting p) := by
  obtain ⟨hresult, halike⟩ := walked_alike r p (fun _ => True) (e := e) fun _ _ => trivial
  have hsame : Alike (fun _ => True) Eq (fun _ => p) (walked e r).2 (walked (e.selecting p) r).2 :=
    { halike with fields := halike.fields.1.trans halike.fields.2.symm }
  exact Prod.ext hresult.symm hsame.eq_selecting

theorem walked_keeps {about : String → Prop} {e : Expr} (htables : ∀ entity ∈ e.tables, about entity)
    {w : Except CompileError Unit} {s : State Registry} (h : walked e r = (w, s)) :
    s.fields = r ∧ ∀ entity ∈ s.statement.entity, about entity := by
  obtain ⟨-, halike⟩ := walked_alike r .all about htables
  rw [h] at halike
  exact ⟨halike.fields.1, halike.entity⟩

/-- The entity that a compilation goes on with after its walk. -/
def IsAbout (e : Expr) (r : Registry) (entity : String) : Prop :=
  ∀ s, walked e r = (.ok (), s) → entityOf e.elementType s = (.ok entity, s)

/-- A query of tables of one entity is about the entity. -/
theorem isAbout_of_tables {e : Expr} (hroot : e.elementType = some entity)
    (htables : ∀ other ∈ e.tables, other = entity) : IsAbout e r entity := by
  intro s hs
  obtain ⟨-, hentity⟩ := walked_keeps htables hs
  unfold entityOf
  rw [hroot]
  cases hs : s.statement.entity with
  | none => rfl
  | some other => rw [hentity other hs]

theorem compile_of_walked_error {e : Expr} {err : CompileError} {s : State Registry}
    (h : walked e r = (.error err, s)) (mode : ProjectionMode) : (compile .registry mode e r).result = .error err := by
  have hcompilation : compilation .registry mode e { fields := r } = (.error err, s) := by
    rw [compilation_eq]
    exact (Walk.bind_ok rfl).trans (Walk.bind_error h)
  exact (compile_eq hcompilation).1

/-- The statement that a walk comes to if the default fields are selected. -/
def withDefaults (r : Registry) (entity : String) (q : Statement) : Statement :=
  { q with
    entity := some entity
    select := r.defaultFields entity
    filters := q.filters ++ (typeClause? (r.typeRestriction entity)).toList }

theorem compile_of_walked {e : Expr} {s : State Registry} (h : walked e r = (.ok (), s)) (hfields : s.fields = r)
    (hentity : entityOf e.elementType s = (.ok entity, s)) {mode : ProjectionMode}
    (hselects : SelectsDefaults mode entity s) (hdefaults : r.defaultFields entity ≠ []) :
    (compile .registry mode e r).result = .ok (withDefaults r entity s.statement) := by
  obtain ⟨s', hselection, hstatement, hfields'⟩ := hselects
  rw [hfields] at hselection
  have hconclude : conclude .registry mode e.elementType s = finish .registry entity (r.defaultFields entity) s' := by
    unfold conclude
    rw [Walk.bind_ok hentity, Walk.bind_ok hselection, if_neg (by simpa using hdefaults)]
  have hcompilation : compilation .registry mode e { fields := r } =
      finish .registry entity (r.defaultFields entity) s' := by
    rw [compilation_eq]
    exact (Walk.bind_ok rfl).trans ((Walk.bind_ok h).trans hconclude)
  rw [(compile_eq hcompilation).1, withDefaults, ← hstatement, ← hfields, ← hfields']
  rfl

end Compilation

/-- The default fields of an entity whose properties have distinct names are the same whether a query asks for them by
their names, for all fields, or for anything in the mode of default fields. The three statements differ at most in
their projections, and there are none exactly if the walk over the query fails. -/
theorem compile_defaults {r : Registry} {entity : String} {m : EntityMapping} (hm : r.entity? entity = some m)
    (hnames : m.HasDistinctNames) (hdefault : ∃ p ∈ m.properties, p.isDefault = true) {e : Expr}
    (hentity : IsAbout e r entity) :
    let byMode := (compile .registry .defaultFields e r).result
    let byAll := (compile .registry .explicit (e.selecting .all) r).result
    let byNames := (compile .registry .explicit (e.selecting (.fields m.defaultNames)) r).result
    byAll = byMode.map (·.selecting .all) ∧
      byNames = byMode.map (·.selecting (.fields m.defaultNames)) ∧
      (∀ q, byMode = .ok q → q.select = m.defaultFields) ∧
      ∀ err, byMode = .error err ↔ (walked e r).1 = .error err := by
  intro byMode byAll byNames
  have hfieldsOf : r.defaultFields entity = m.defaultFields := by
    simp only [Registry.defaultFields, hm]
  obtain ⟨p, hp, hpdefault⟩ := hdefault
  have hmem : p ∈ m.properties.filter (·.isDefault) := List.mem_filter.2 ⟨hp, hpdefault⟩
  have hnamed : m.defaultNames ≠ [] := List.ne_nil_of_mem (List.mem_map_of_mem hmem)
  have hfields : r.defaultFields entity ≠ [] := hfieldsOf ▸ List.ne_nil_of_mem (List.mem_map_of_mem hmem)
  rcases hwalked : walked e r with ⟨err | ⟨⟩, s⟩
  · -- no projection is looked at before the walk fails
    have hfails : ∀ q, walked (e.selecting q) r = (.error err, s.selecting q) := fun q => by
      rw [walked_selecting, hwalked]
    have hmode : byMode = .error err := compile_of_walked_error hwalked .defaultFields
    have hall : byAll = .error err := compile_of_walked_error (hfails .all) .explicit
    have hnames : byNames = .error err := compile_of_walked_error (hfails _) .explicit
    rw [hmode, hall, hnames]
    refine ⟨rfl, rfl, fun q hq => (by cases hq), fun other => ?_⟩
    simp
  · have htables : ∀ other ∈ e.tables, True := fun _ _ => trivial
    obtain ⟨rfl, -⟩ := walked_keeps htables hwalked
    have hends : ∀ q, walked (e.selecting q) s.fields = (.ok (), s.selecting q) := fun q => by
      rw [walked_selecting, hwalked]
    have hentityOf : ∀ q, entityOf (e.selecting q).elementType (s.selecting q) = (.ok entity, s.selecting q) := by
      intro q
      rw [Expr.elementType_selecting]
      exact entityOf_selecting (hentity s hwalked)
    have hmode : byMode = .ok (withDefaults s.fields entity s.statement) :=
      compile_of_walked hwalked rfl (hentity s hwalked) (selectsDefaults_of_mode s) hfields
    have hall : byAll = .ok (withDefaults s.fields entity (s.statement.selecting .all)) :=
      compile_of_walked (hends .all) rfl (hentityOf .all) (selectsDefaults_all s) hfields
    have hnames : byNames = .ok (withDefaults s.fields entity (s.statement.selecting (.fields m.defaultNames))) :=
      compile_of_walked (hends _) rfl (hentityOf _) (selectsDefaults_names hm hnames hnamed) hfields
    rw [hmode, hall, hnames]
    refine ⟨rfl, rfl, fun q hq => ?_, fun other => ?_⟩
    · cases hq
      exact hfieldsOf
    · simp

/-- Two of the properties stand for one field, and a property that is not selected by default stands among them. -/
theorem compile_defaults_task :
    let m := EntityMapping.new "Task" |>.property "Id" "System.Id" |>.hiddenProperty "Rank" "System.Rank"
      |>.property "Name" "System.Title" |>.property "Title" "System.Title"
    let r := Registry.ofMappings [m]
    let e := Expr.filter (.select (.table "Task") (.fields ["Rank"]))
      (.binary .equal (.indexer "Rank") (.constant .null))
    ∃ q, (compile .registry .defaultFields e r).result = .ok q ∧
      q.select = ["System.Id", "System.Title", "System.Title"] ∧
      (compile .registry .explicit (e.selecting .all) r).result = .ok (q.selecting .all) ∧
      (compile .registry .explicit (e.selecting (.fields ["Id", "Name", "Title"])) r).result =
        .ok (q.selecting (.fields ["Id", "Name", "Title"])) := by
  intro m r e
  have hm : r.entity? "Task" = some m := by decide +kernel
  have hnames : m.HasDistinctNames := by
    unfold EntityMapping.HasDistinctNames
    decide
  have hdefault : ∃ p ∈ m.properties, p.isDefault = true := by decide
  have hentity : IsAbout e r "Task" := isAbout_of_tables rfl (by simp [e, Expr.tables, Expr.table])
  obtain ⟨hall, hnamed, hselect, -⟩ := compile_defaults hm hnames hdefault hentity
  obtain ⟨q, hq⟩ : ∃ q, (compile .registry .defaultFields e r).result = .ok q := ⟨_, rfl⟩
  rw [hq] at hall hnamed
  exact ⟨q, hq, hselect q hq, hall, hnamed⟩

end WorkItemQuery
