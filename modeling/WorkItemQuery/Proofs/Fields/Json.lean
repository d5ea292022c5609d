/-
The JSON form of entity mappings loses nothing: work item types that are left out are none, and what is given is read
back as it was. A list of mappings is never nested deeper than the mappings, their lists of properties and the
properties, so its text is always within the bound of the reader of texts.
-/
import WorkItemQuery.Fields.Json
import WorkItemQuery.Proofs.Expr.Json

namespace WorkItemQuery

/-! ## Properties -/

namespace PropertyMapping

theorem ofJson?_toJson (p : PropertyMapping) : ofJson? p.toJson = some p := rfl

theorem isWhole_toJson (p : PropertyMapping) : p.toJson.IsWhole := ⟨trivial, trivial, trivial, trivial⟩

theorem nesting_toJson (p : PropertyMapping) : p.toJson.nesting = 1 := rfl

end PropertyMapping

/-! ## Nesting of lists -/

theorem Json.nestingOfItems_map_le {α : Type} {write : α → Json} {n : Nat} (h : ∀ a, (write a).nesting ≤ n) :
    ∀ as : List α, Json.nestingOfItems (as.map write) ≤ n
  | [] => Nat.zero_le n
  | a :: as => Nat.max_le.2 ⟨h a, Json.nestingOfItems_map_le h as⟩

theorem Json.nesting_strings_le (texts : List String) : (Json.strings texts).nesting ≤ 1 :=
  Nat.succ_le_succ (@Json.nestingOfItems_map_le String Json.string 0 (fun _ => Nat.le_refl 0) texts)

/-! ## Entities -/

namespace EntityMapping

/-- What the members of the JSON form of a mapping are, by their names; one of them may be missing. -/
structure HasMembers (m : EntityMapping) (r : Json.Record) : Prop where
  name : r.lookup "name" = some (.string m.name)
  workItemTypes : r.lookup "work_item_types" =
    if m.workItemTypes.isEmpty then none else some (.strings m.workItemTypes)
  properties : r.lookup "properties" = some (.array (m.properties.map PropertyMapping.toJson))

theorem exists_members (m : EntityMapping) : ∃ r : Json.Record, m.toJson = .object r ∧ m.HasMembers r := by
  obtain ⟨name, workItemTypes, properties⟩ := m
  refine ⟨_, rfl, ?_⟩
  cases workItemTypes <;> exact ⟨rfl, rfl, rfl⟩

theorem ofJson?_toJson (m : EntityMapping) : ofJson? m.toJson = some m := by
  obtain ⟨r, hobject, h⟩ := m.exists_members
  rw [hobject]
  show (do
    let name ← r.required? "name" Json.string?
    let workItemTypes ← r.optional? "work_item_types" [] (Json.listOf? Json.string?)
    let properties ← r.optional? "properties" [] (Json.listOf? PropertyMapping.ofJson?)
    return (⟨name, workItemTypes, properties⟩ : EntityMapping)) = some m
  have htypes : r.optional? "work_item_types" [] (Json.listOf? Json.string?) = some m.workItemTypes :=
    Json.Record.optional?_list (fun _ => rfl) h.workItemTypes
  rw [Json.Record.required?_of_lookup h.name, htypes, Json.Record.optional?_of_lookup h.properties,
    Json.listOf?_map PropertyMapping.ofJson?_toJson]
  rfl

theorem isWhole_toJson (m : EntityMapping) : m.toJson.IsWhole := by
  obtain ⟨name, workItemTypes, properties⟩ := m
  have hproperties : Json.AreWhole (properties.map PropertyMapping.toJson) :=
    Json.areWhole_map PropertyMapping.isWhole_toJson properties
  cases workItemTypes with
  | nil => exact ⟨trivial, hproperties, trivial⟩
  | cons t ts => exact ⟨trivial, Json.isWhole_strings (t :: ts), hproperties, trivial⟩

theorem nesting_toJson_le (m : EntityMapping) : m.toJson.nesting ≤ 3 := by
  obtain ⟨name, workItemTypes, properties⟩ := m
  have hproperties : Json.nestingOfItems (properties.map PropertyMapping.toJson) ≤ 1 :=
    Json.nestingOfItems_map_le (fun p => Nat.le_of_eq p.nesting_toJson) properties
  cases workItemTypes with
  | nil =>
    show max 0 (max (Json.nestingOfItems (properties.map PropertyMapping.toJson) + 1) 0) + 1 ≤ 3
    omega
  | cons t ts =>
    have htypes := Json.nesting_strings_le (t :: ts)
    show max 0 (max (Json.strings (t :: ts)).nesting
      (max (Json.nestingOfItems (properties.map PropertyMapping.toJson) + 1) 0)) + 1 ≤ 3
    omega

/-- A list of mappings is read back from its text, however many mappings and properties it has. -/
theorem listOf?_parseWithin? (ms : List EntityMapping) :
    (Json.parseWithin? (some Json.nestingLimit) (Json.array (ms.map toJson)).text).bind (Json.listOf? ofJson?) =
      some ms := by
  have hwhole : (Json.array (ms.map toJson)).IsWhole := Json.areWhole_map isWhole_toJson ms
  have hnesting : (Json.array (ms.map toJson)).nesting ≤ Json.nestingLimit :=
    Nat.succ_le_succ (Nat.le_trans (Json.nestingOfItems_map_le nesting_toJson_le ms) (by decide))
  rw [Json.parseWithin?_text hwhole, if_pos hnesting]
  exact Json.listOf?_map ofJson?_toJson ms

end EntityMapping

end WorkItemQuery
