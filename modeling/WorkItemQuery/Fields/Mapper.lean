/-
Field mappers: what compilation asks about fields. Answers may change the mapper's state, as they
do when they are remembered or counted.
-/
import WorkItemQuery.Fields.Registry

namespace WorkItemQuery

/-- The questions about fields, asked of a state. -/
structure FieldMapper (σ : Type) where
  /-- The field of a property of an entity. -/
  resolve : String → String → σ → Except UnknownField String × σ
  /-- The fields selected when a query asks for none. -/
  defaultFields : σ → String → List String
  /-- The work item types that an entity is limited to. -/
  typeRestriction : σ → String → List String

namespace FieldMapper

/-- The mapper that looks up every field in a registry. -/
def registry : FieldMapper Registry where
  resolve entity property r := (r.resolve entity property, r)
  defaultFields := Registry.defaultFields
  typeRestriction := Registry.typeRestriction

end FieldMapper

/-- A mapper's state with the number of fields it was asked to resolve. -/
structure Counted (σ : Type) where
  inner : σ
  calls : Nat

namespace FieldMapper

/-- The same mapper, counting. -/
def counted {σ : Type} (mapper : FieldMapper σ) : FieldMapper (Counted σ) where
  resolve entity property s :=
    let (answer, inner) := mapper.resolve entity property s.inner
    (answer, ⟨inner, s.calls + 1⟩)
  defaultFields s := mapper.defaultFields s.inner
  typeRestriction s := mapper.typeRestriction s.inner

end FieldMapper

/-- A mapper's state with the fields resolved so far, by entity and property. -/
structure Memo (σ : Type) where
  inner : σ
  entries : List ((String × String) × String)

namespace Memo

/-- Nothing resolved yet. -/
def new {σ : Type} (inner : σ) : Memo σ := ⟨inner, []⟩

/-- The number of fields remembered. -/
def size {σ : Type} (m : Memo σ) : Nat := m.entries.length

/-- The field remembered for a property of an entity. -/
def remembered? {σ : Type} (m : Memo σ) (entity property : String) : Option String :=
  m.entries.lookup (entity, property)

end Memo

namespace FieldMapper

/-- The same mapper, remembering every field it has resolved; failures are asked again. -/
def memoized {σ : Type} (mapper : FieldMapper σ) : FieldMapper (Memo σ) where
  resolve entity property m :=
    match m.remembered? entity property with
    | some field => (.ok field, m)
    | none =>
      match mapper.resolve entity property m.inner with
      | (.ok field, inner) => (.ok field, ⟨inner, ((entity, property), field) :: m.entries⟩)
      | (.error e, inner) => (.error e, { m with inner })
  defaultFields m := mapper.defaultFields m.inner
  typeRestriction m := mapper.typeRestriction m.inner

end FieldMapper

end WorkItemQuery
