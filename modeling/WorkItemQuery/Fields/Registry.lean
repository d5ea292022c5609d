/-
The registry of entities. It holds one mapping per name, in the order of the names; registering an
entity replaces the mapping of the same name as a whole.
-/
import WorkItemQuery.Fields.Mapping

namespace WorkItemQuery

/-- The mappings of a registry come in strictly increasing order of their names. -/
def InNameOrder (mappings : List EntityMapping) : Prop :=
  mappings.Pairwise fun a b => a.name < b.name

/-- Puts a mapping in its place, or in place of the one with its name. -/
def putMapping (m : EntityMapping) : List EntityMapping → List EntityMapping
  | [] => [m]
  | e :: rest =>
    if m.name < e.name then m :: e :: rest
    else if m.name = e.name then m :: rest
    else e :: putMapping m rest

theorem mem_putMapping {m e : EntityMapping} {es : List EntityMapping} (h : e ∈ putMapping m es) :
    e = m ∨ e ∈ es := by
  induction es with
  | nil => simpa [putMapping] using h
  | cons x rest ih =>
    simp only [putMapping] at h
    split at h
    · simpa using h
    · split at h
      · rcases List.mem_cons.1 h with h | h
        · exact .inl h
        · exact .inr (List.mem_cons_of_mem _ h)
      · rcases List.mem_cons.1 h with h | h
        · exact .inr (h ▸ List.mem_cons_self)
        · rcases ih h with h | h
          · exact .inl h
          · exact .inr (List.mem_cons_of_mem _ h)

theorem putMapping_inNameOrder (m : EntityMapping) {es : List EntityMapping} (h : InNameOrder es) :
    InNameOrder (putMapping m es) := by
  induction es with
  | nil => simp [putMapping, InNameOrder]
  | cons e rest ih =>
    obtain ⟨hhead, hrest⟩ := List.pairwise_cons.1 h
    simp only [putMapping]
    split
    · rename_i hlt
      refine List.pairwise_cons.2 ⟨fun x hx => ?_, h⟩
      rcases List.mem_cons.1 hx with rfl | hx
      · exact hlt
      · exact String.lt_trans hlt (hhead x hx)
    · rename_i hlt
      split
      · rename_i heq
        exact List.pairwise_cons.2 ⟨fun x hx => heq ▸ hhead x hx, hrest⟩
      · rename_i hne
        refine List.pairwise_cons.2 ⟨fun x hx => ?_, ih hrest⟩
        rcases mem_putMapping hx with rfl | hx
        · exact Std.lt_of_le_of_ne (String.not_lt.1 hlt) (Ne.symm hne)
        · exact hhead x hx

/-- The registry of entities. -/
structure Registry where
  entities : List EntityMapping
  inNameOrder : InNameOrder entities
deriving DecidableEq

/-- A property that an entity does not have, or any property of an entity that is not registered. -/
structure UnknownField where
  entity : String
  property : String
deriving DecidableEq, Repr

namespace UnknownField

def message (e : UnknownField) : String :=
  "Unknown field: no mapping for property '" ++ e.property ++ "' on entity '" ++ e.entity ++ "'"

end UnknownField

namespace Registry

def empty : Registry := ⟨[], List.Pairwise.nil⟩

/-- Registers an entity. -/
def register (r : Registry) (m : EntityMapping) : Registry :=
  ⟨putMapping m r.entities, putMapping_inNameOrder m r.inNameOrder⟩

/-- The registry of the given mappings, registered one after the other. -/
def ofMappings (ms : List EntityMapping) : Registry := ms.foldl register empty

/-- The mapping of an entity. -/
def entity? (r : Registry) (name : String) : Option EntityMapping :=
  r.entities.find? (·.name == name)

/-- The names of the entities, in increasing order. -/
def entityNames (r : Registry) : List String := r.entities.map (·.name)

/-- The field that a property of an entity stands for. -/
def resolve (r : Registry) (entity property : String) : Except UnknownField String :=
  match (r.entity? entity).bind (·.find? property) with
  | some p => .ok p.field
  | none => .error ⟨entity, property⟩

/-- The fields that queries of an entity select by default. -/
def defaultFields (r : Registry) (entity : String) : List String :=
  match r.entity? entity with
  | some m => m.defaultFields
  | none => []

/-- The work item types that an entity is limited to. -/
def typeRestriction (r : Registry) (entity : String) : List String :=
  match r.entity? entity with
  | some m => m.workItemTypes
  | none => []

/-- The names, in order, whose mappings are replaced when the given mappings are registered. -/
def replacedNames (r : Registry) : List EntityMapping → List String
  | [] => []
  | m :: rest =>
    let later := (r.register m).replacedNames rest
    if (r.entity? m.name).isSome then m.name :: later else later

end Registry

end WorkItemQuery
