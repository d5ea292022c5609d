/-
The JSON form of entity mappings. Only the names must be given; a property is selected by default
unless it says otherwise.
-/
import WorkItemQuery.Fields.Mapping
import WorkItemQuery.Json.Value

namespace WorkItemQuery

namespace PropertyMapping

def toJson (p : PropertyMapping) : Json :=
  .object [("property", .string p.property), ("field", .string p.field), ("default", .bool p.isDefault)]

def ofJson? (j : Json) : Option PropertyMapping := do
  let r ← j.record? ["property", "field", "default"] 2
  return ⟨← r.required? "property" Json.string?, ← r.required? "field" Json.string?,
    ← r.optional? "default" true Json.bool?⟩

end PropertyMapping

namespace EntityMapping

def toJson (m : EntityMapping) : Json :=
  .object ([("name", .string m.name)]
    ++ (if m.workItemTypes.isEmpty then [] else [("work_item_types", .strings m.workItemTypes)])
    ++ [("properties", .array (m.properties.map PropertyMapping.toJson))])

def ofJson? (j : Json) : Option EntityMapping := do
  let r ← j.record? ["name", "work_item_types", "properties"] 1
  return ⟨← r.required? "name" Json.string?,
    ← r.optional? "work_item_types" [] (Json.listOf? Json.string?),
    ← r.optional? "properties" [] (Json.listOf? PropertyMapping.ofJson?)⟩

end EntityMapping

end WorkItemQuery
