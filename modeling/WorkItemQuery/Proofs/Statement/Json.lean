/-
The JSON form of a statement loses nothing. Fragments say their kind and are read back by it, at any depth of compounds;
a member that is left out is one whose default the reader puts in its place. So a statement is read back from its JSON
form, and its own text stays what it was. The form itself is read back from its text, as far as the reader of texts has
room for its nesting.
-/
import WorkItemQuery.Proofs.Expr.Json
import WorkItemQuery.Statement.Json

namespace WorkItemQuery

open Number Time

/-! ## Fragments -/

namespace Fragment

theorem depth_toJson_pos (f : Fragment) : 0 < f.toJson.depth := by
  cases f <;> exact Nat.zero_lt_succ _

/-- The parts of a compound are two levels below it: inside the object and inside the array. -/
theorem depth_toJson_compound (parts : List Fragment) :
    Json.depthOfItems (toJsonAll parts) + 2 ≤ (compound parts).toJson.depth := by
  simp only [toJson, valued, Json.depth, Json.depthOfMembers]
  omega

/-- A fragment with a value is read by its kind. -/
theorem ofJsonWithin_valued (n : Nat) (kind : String) (value : Json) :
    ofJsonWithin (n + 1) (valued kind value) = ofKind? (ofJsonWithin n) kind (some value) := rfl

theorem ofKind?_timestamp (read : Json → Option Fragment) (value : Json) :
    ofKind? read "Timestamp" (some value) = (Timestamp.ofJson? value >>= fun t => some (timestamp t)) := rfl

mutual

/-- A fragment is read back with as many levels as its JSON form has. -/
theorem ofJsonWithin_toJson : ∀ (f : Fragment) (n : Nat), f.toJson.depth ≤ n → ofJsonWithin n f.toJson = some f
  | f, 0, h => by
    have hpos := f.depth_toJson_pos
    omega
  | literal _, _ + 1, _ | constant _, _ + 1, _ | field _, _ + 1, _ => rfl
  | groupOpen, _ + 1, _ | groupClose, _ + 1, _ => rfl
  | timestamp time, n + 1, _ => by
    rw [toJson, ofJsonWithin_valued, ofKind?_timestamp, Timestamp.ofJson?_toJson]
    rfl
  | numberList values, n + 1, _ => by
    rw [toJson, ofJsonWithin_valued]
    show (Json.listOf? _ (.array (values.map fun v => .int v.toInt)) >>= fun vs => some (numberList vs)) = _
    rw [Json.listOf?_int32s]
    rfl
  | stringList values, n + 1, _ => by
    rw [toJson, ofJsonWithin_valued]
    show (Json.listOf? Json.string? (.strings values) >>= fun vs => some (stringList vs)) = _
    rw [Json.listOf?_strings]
    rfl
  | compound parts, n + 1, h => by
    have hdepth := depth_toJson_compound parts
    have hparts : Json.listOf? (ofJsonWithin n) (.array (toJsonAll parts)) = some parts :=
      listOf?_toJsonAll parts n (by omega)
    rw [toJson, ofJsonWithin_valued]
    show (Json.listOf? (ofJsonWithin n) (.array (toJsonAll parts)) >>= fun fs => some (compound fs)) = _
    rw [hparts]
    rfl

theorem listOf?_toJsonAll : ∀ (fs : List Fragment) (n : Nat), Json.depthOfItems (toJsonAll fs) ≤ n →
    Json.listOf? (ofJsonWithin n) (.array (toJsonAll fs)) = some fs
  | [], _, _ => rfl
  | f :: fs, n, h => by
    rw [toJsonAll, Json.depthOfItems] at h
    have hfirst := ofJsonWithin_toJson f n (by omega)
    have hrest : (toJsonAll fs).mapM (ofJsonWithin n) = some fs := listOf?_toJsonAll fs n (by omega)
    show (f.toJson :: toJsonAll fs).mapM (ofJsonWithin n) = _
    rw [List.mapM_cons, hfirst, hrest]
    rfl

end

theorem ofJson?_toJson (f : Fragment) : ofJson? f.toJson = some f :=
  ofJsonWithin_toJson f f.toJson.depth (Nat.le_refl _)

/-- Clauses, each with the levels of its own. -/
theorem listOf?_ofJson? : ∀ fs : List Fragment, Json.listOf? ofJson? (.array (toJsonAll fs)) = some fs
  | [] => rfl
  | f :: fs => by
    have hrest : (toJsonAll fs).mapM ofJson? = some fs := listOf?_ofJson? fs
    show (f.toJson :: toJsonAll fs).mapM ofJson? = _
    rw [List.mapM_cons, ofJson?_toJson, hrest]
    rfl

mutual

theorem isWhole_toJson : ∀ f : Fragment, f.toJson.IsWhole
  | literal _ | constant _ | timestamp _ | field _ => ⟨trivial, trivial, trivial⟩
  | groupOpen | groupClose => ⟨trivial, trivial⟩
  | numberList values => ⟨trivial, Json.areWhole_map Json.isWhole_int32 values, trivial⟩
  | stringList values => ⟨trivial, Json.isWhole_strings values, trivial⟩
  | compound parts => ⟨trivial, areWhole_toJsonAll parts, trivial⟩

theorem areWhole_toJsonAll : ∀ fs : List Fragment, Json.AreWhole (toJsonAll fs)
  | [] => trivial
  | f :: fs => ⟨isWhole_toJson f, areWhole_toJsonAll fs⟩

end

end Fragment

/-! ## Statements -/

namespace Statement

/-- What the members of the JSON form of a statement are, by their names; two of them may be missing. -/
structure HasMembers (s : Statement) (r : Json.Record) : Prop where
  entity : r.lookup "underlying_type" = some (.ofOption (s.entity.map .string))
  projections : r.lookup "projections" =
    if s.projections.isEmpty then none else some (.array (s.projections.map Projection.toJson))
  select : r.lookup "select" = some (.strings s.select)
  filters : r.lookup "where_clauses" = some (.array (Fragment.toJsonAll s.filters))
  orders : r.lookup "then_order_clauses" = some (.array (Fragment.toJsonAll s.orders))
  asOf : r.lookup "as_of" = s.asOf.map Timestamp.toJson

theorem exists_members (s : Statement) : ∃ r : Json.Record, s.toJson = .object r ∧ s.HasMembers r := by
  obtain ⟨entity, projections, select, filters, orders, asOf⟩ := s
  refine ⟨_, rfl, ?_⟩
  -- neither member that may be missing hides another one
  cases projections <;> cases asOf <;> exact ⟨rfl, rfl, rfl, rfl, rfl, rfl⟩

namespace HasMembers

variable {s : Statement} {r : Json.Record}

theorem read_entity (h : s.HasMembers r) :
    r.optional? "underlying_type" none (Json.nullable? Json.string?) = some s.entity := by
  rw [Json.Record.optional?_of_lookup h.entity]
  cases s.entity <;> rfl

theorem read_projections (h : s.HasMembers r) :
    r.optional? "projections" [] (Json.listOf? Projection.ofJson?) = some s.projections :=
  Json.Record.optional?_list Projection.ofJson?_toJson h.projections

theorem read_asOf (h : s.HasMembers r) :
    r.optional? "as_of" none (Json.nullable? Timestamp.ofJson?) = some s.asOf := by
  have hlookup := h.asOf
  cases htime : s.asOf with
  | none =>
    rw [htime] at hlookup
    exact Json.Record.optional?_of_omitted hlookup none _
  | some t =>
    rw [htime] at hlookup
    rw [Json.Record.optional?_of_lookup hlookup]
    show (Timestamp.ofJson? t.toJson).map some = _
    rw [Timestamp.ofJson?_toJson]
    rfl

end HasMembers

theorem ofJson?_toJson (s : Statement) : ofJson? s.toJson = some s := by
  obtain ⟨r, hobject, h⟩ := s.exists_members
  rw [hobject]
  show (do
    let entity ← r.optional? "underlying_type" none (Json.nullable? Json.string?)
    let projections ← r.optional? "projections" [] (Json.listOf? Projection.ofJson?)
    let select ← r.required? "select" (Json.listOf? Json.string?)
    let filters ← r.optional? "where_clauses" [] (Json.listOf? Fragment.ofJson?)
    let orders ← r.optional? "then_order_clauses" [] (Json.listOf? Fragment.ofJson?)
    let asOf ← r.optional? "as_of" none (Json.nullable? Timestamp.ofJson?)
    return { entity, projections, select, filters, orders, asOf : Statement }) = some s
  rw [h.read_entity, h.read_projections, Json.Record.required?_of_lookup h.select, Json.listOf?_strings,
    Json.Record.optional?_of_lookup h.filters, Fragment.listOf?_ofJson?, Json.Record.optional?_of_lookup h.orders,
    Fragment.listOf?_ofJson?, h.read_asOf]
  rfl

theorem isWhole_toJson (s : Statement) : s.toJson.IsWhole := by
  obtain ⟨entity, projections, select, filters, orders, asOf⟩ := s
  have hentity : (Json.ofOption (entity.map .string)).IsWhole := by
    cases entity <;> trivial
  have hprojections : Json.AreWhole (projections.map Projection.toJson) :=
    Json.areWhole_map Projection.isWhole_toJson projections
  have hselect := Json.isWhole_strings select
  have hfilters := Fragment.areWhole_toJsonAll filters
  have horders := Fragment.areWhole_toJsonAll orders
  cases projections with
  | nil =>
    cases asOf with
    | none => exact ⟨hentity, hselect, hfilters, horders, trivial⟩
    | some t => exact ⟨hentity, hselect, hfilters, horders, trivial, trivial⟩
  | cons p ps =>
    cases asOf with
    | none => exact ⟨hentity, hprojections, hselect, hfilters, horders, trivial⟩
    | some t => exact ⟨hentity, hprojections, hselect, hfilters, horders, trivial, trivial⟩

theorem ofJson?_parseWithin? (s : Statement) (limit : Nat) :
    (Json.parseWithin? (some limit) s.toJson.text).bind ofJson? =
      if s.toJson.nesting ≤ limit then some s else none := by
  rw [Json.parseWithin?_text s.isWhole_toJson]
  split
  · exact s.ofJson?_toJson
  · rfl

/-- A statement is read back from its JSON form, however deep its compounds are, so its own text stays what it was. From
the text of the form it is read back by a reader without a bound on the nesting, and by a reader with a bound exactly if
the form is nested within it. -/
theorem ofJson?_parse?_toJson (s : Statement) :
    ofJson? s.toJson = some s ∧ (ofJson? s.toJson).map text = some s.text ∧
      (Json.parse? s.toJson.text).bind ofJson? = some s ∧
      ∀ limit, (Json.parseWithin? (some limit) s.toJson.text).bind ofJson? =
        if s.toJson.nesting ≤ limit then some s else none := by
  have hvalue := s.ofJson?_toJson
  refine ⟨hvalue, by rw [hvalue]; rfl, ?_, s.ofJson?_parseWithin?⟩
  rw [Json.parse?_text s.isWhole_toJson]
  exact hvalue

/-! ### Compounds -/

/-- Each compound around a fragment puts an object and an array around it. -/
theorem nesting_compounds (n : Nat) (f : Fragment) :
    (Nat.repeat (fun f => Fragment.compound [f]) n f).toJson.nesting = f.toJson.nesting + 2 * n := by
  induction n with
  | zero => rfl
  | succ n ih =>
    show max 0 (max (max (Nat.repeat (fun f => Fragment.compound [f]) n f).toJson.nesting 0 + 1) 0) + 1 = _
    rw [ih]
    omega

/-- The form of a bracket in compounds is read back whatever their count is. The text of the form is read back within
the usual bound only up to sixty-two of them. -/
theorem ofJson?_compounds (n : Nat) :
    let s : Statement := { select := ["System.Id"], filters := [Nat.repeat (fun f => .compound [f]) n .groupOpen] }
    ofJson? s.toJson = some s ∧
      (Json.parseWithin? (some Json.nestingLimit) s.toJson.text).bind ofJson? = if n ≤ 62 then some s else none := by
  intro s
  have hlimit : s.toJson.nesting ≤ Json.nestingLimit ↔ n ≤ 62 := by
    have hfilter : (Nat.repeat (fun f => Fragment.compound [f]) n .groupOpen).toJson.nesting = 1 + 2 * n :=
      nesting_compounds n .groupOpen
    show max 0 (max 1 (max (max (Fragment.toJson _).nesting 0 + 1) (max 1 0))) + 1 ≤ 127 ↔ _
    rw [hfilter]
    omega
  refine ⟨s.ofJson?_toJson, (s.ofJson?_parseWithin? Json.nestingLimit).trans ?_⟩
  simp only [hlimit]

end Statement

end WorkItemQuery
