/-
How the properties of an entity map to field identifiers.
-/

namespace WorkItemQuery

/-- A property, the field it stands for, and whether queries select it by default. -/
structure PropertyMapping where
  property : String
  field : String
  isDefault : Bool
deriving DecidableEq, Repr

/-- An entity: the work item types it is limited to, no limit if there are none, and its properties. -/
structure EntityMapping where
  name : String
  workItemTypes : List String
  properties : List PropertyMapping
deriving DecidableEq, Repr

namespace EntityMapping

/-- An entity without properties. -/
def new (name : String) : EntityMapping := ⟨name, [], []⟩

/-- One more property, selected by default. -/
def property (m : EntityMapping) (property field : String) : EntityMapping :=
  { m with properties := m.properties ++ [⟨property, field, true⟩] }

/-- One more property, selected only on request. -/
def hiddenProperty (m : EntityMapping) (property field : String) : EntityMapping :=
  { m with properties := m.properties ++ [⟨property, field, false⟩] }

/-- One more work item type. -/
def workItemType (m : EntityMapping) (name : String) : EntityMapping :=
  { m with workItemTypes := m.workItemTypes ++ [name] }

/-- The first property with this name. -/
def find? (m : EntityMapping) (property : String) : Option PropertyMapping :=
  m.properties.find? (·.property == property)

/-- The fields that are selected by default. -/
def defaultFields (m : EntityMapping) : List String :=
  (m.properties.filter (·.isDefault)).map (·.field)

end EntityMapping

end WorkItemQuery
