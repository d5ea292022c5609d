/-
Entity mappings from YAML.
-/
import WorkItemQuery.Fields.Registry
import WorkItemQuery.Yaml.Reader

namespace WorkItemQuery

open Yaml

def PropertyMapping.ofYaml? (n : Node) : Option PropertyMapping := do
  let r ← n.record? ["property", "field", "default"]
  return ⟨← r.required? "property" Node.text?, ← r.required? "field" Node.text?,
    ← r.optional? "default" true Node.flag?⟩

def EntityMapping.ofYaml? (n : Node) : Option EntityMapping := do
  let r ← n.record? ["name", "work_item_types", "properties"]
  return ⟨← r.required? "name" Node.text?, ← r.optional? "work_item_types" [] (Node.listOf? Node.text?),
    ← r.optional? "properties" [] (Node.listOf? PropertyMapping.ofYaml?)⟩

/-- The mappings that a YAML text lists. -/
def EntityMapping.listOfYaml? (text : String) : Option (List EntityMapping) := do
  (← Node.ofText? text).listOf? EntityMapping.ofYaml?

/-- The registry of the mappings that a YAML text lists. -/
def Registry.ofYaml? (text : String) : Option Registry :=
  (EntityMapping.listOfYaml? text).map Registry.ofMappings

end WorkItemQuery
