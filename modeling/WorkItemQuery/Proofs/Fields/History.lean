/-
What a registry says, told by its history. However many mappings have been registered, under whatever names and with
whatever repetitions, an entity has the last mapping that was registered under its name, as a whole. All answers about
the entity come from this mapping, and no registration under another name changes them. The names of a registry are
those of its history, each once and in the order of their bytes.
-/
import WorkItemQuery.Fields.Yaml
import WorkItemQuery.Proofs.Text.ByteOrder
import Mathlib.Data.List.Basic

namespace WorkItemQuery

open Text

namespace EntityMapping

/-- A property before which no other has its name. -/
def IsFirst (m : EntityMapping) (p : PropertyMapping) : Prop :=
  ∃ before after, m.properties = before ++ p :: after ∧ ∀ other ∈ before, other.property ≠ p.property

theorem find?_eq_some_iff {m : EntityMapping} {property : String} {p : PropertyMapping} :
    m.find? property = some p ↔ p.property = property ∧ m.IsFirst p := by
  rw [find?, List.find?_eq_some_iff_append, beq_iff_eq]
  constructor
  · rintro ⟨rfl, before, after, hproperties, hbefore⟩
    exact ⟨rfl, before, after, hproperties, fun other hother => by simpa using hbefore other hother⟩
  · rintro ⟨rfl, before, after, hproperties, hbefore⟩
    exact ⟨rfl, before, after, hproperties, fun other hother => by simpa using hbefore other hother⟩

theorem find?_eq_none_iff {m : EntityMapping} {property : String} :
    m.find? property = none ↔ ∀ p ∈ m.properties, p.property ≠ property := by
  simp [find?]

end EntityMapping

/-! ## One registration -/

/-- What is put in its place is found there, and nothing else is found elsewhere. -/
theorem find?_putMapping (m : EntityMapping) (name : String) (es : List EntityMapping) :
    (putMapping m es).find? (·.name == name) =
      if m.name = name then some m else es.find? (·.name == name) := by
  induction es with
  | nil => by_cases h : m.name = name <;> simp [putMapping, h]
  | cons e rest ih =>
    rw [putMapping]
    split
    · by_cases h : m.name = name <;> simp [h]
    · split
      · rename_i heq
        by_cases h : m.name = name
        · simp [h]
        · have he : e.name ≠ name := fun he => h (heq.trans he)
          simp [h, he]
      · rename_i hne
        by_cases he : e.name = name
        · have h : m.name ≠ name := fun h => hne (h.trans he.symm)
          simp [he, h]
        · simp [he, ih]

namespace Registry

theorem entity?_register (r : Registry) (m : EntityMapping) (name : String) :
    (r.register m).entity? name = if m.name = name then some m else r.entity? name :=
  find?_putMapping m name r.entities

/-! ## All registrations -/

/-- A mapping after which no other has its name. -/
def IsLast (history : List EntityMapping) (m : EntityMapping) : Prop :=
  ∃ before after, history = before ++ m :: after ∧ ∀ other ∈ after, other.name ≠ m.name

theorem entity?_foldl (name : String) : ∀ (history : List EntityMapping) (r : Registry),
    (history.foldl register r).entity? name = (history.reverse.find? (·.name == name)).or (r.entity? name)
  | [], _ => rfl
  | m :: history, r => by
    rw [List.foldl_cons, entity?_foldl name history, entity?_register, List.reverse_cons, List.find?_append,
      Option.or_assoc]
    by_cases h : m.name = name <;> simp [h]

theorem entity?_ofMappings (history : List EntityMapping) (name : String) :
    (ofMappings history).entity? name = history.reverse.find? (·.name == name) := by
  rw [ofMappings, entity?_foldl]
  exact Option.or_none

theorem entity?_ofMappings_eq_some_iff {history : List EntityMapping} {name : String} {m : EntityMapping} :
    (ofMappings history).entity? name = some m ↔ m.name = name ∧ IsLast history m := by
  rw [entity?_ofMappings, List.find?_eq_some_iff_append, beq_iff_eq]
  constructor
  · rintro ⟨rfl, after, before, hhistory, hafter⟩
    refine ⟨rfl, before.reverse, after.reverse, ?_, fun other hother => ?_⟩
    · simpa using congrArg List.reverse hhistory
    · simpa using hafter other (List.mem_reverse.1 hother)
  · rintro ⟨rfl, before, after, rfl, hafter⟩
    refine ⟨rfl, after.reverse, before.reverse, by simp, fun other hother => ?_⟩
    simpa using hafter other (List.mem_reverse.1 hother)

theorem entity?_ofMappings_eq_none_iff {history : List EntityMapping} {name : String} :
    (ofMappings history).entity? name = none ↔ ∀ m ∈ history, m.name ≠ name := by
  rw [entity?_ofMappings]
  simp

/-- Registrations under other names make no difference to an entity. -/
theorem entity?_eq_of_filter {history others : List EntityMapping} {name : String}
    (h : others.filter (·.name == name) = history.filter (·.name == name)) :
    (ofMappings others).entity? name = (ofMappings history).entity? name := by
  have hlast : ∀ ms : List EntityMapping,
      ms.reverse.find? (·.name == name) = (ms.filter (·.name == name)).getLast? := by
    intro ms
    rw [← List.head?_filter, List.filter_reverse, List.head?_reverse]
  rw [entity?_ofMappings, entity?_ofMappings, hlast, hlast, h]

/-! ## The answers of a registry -/

theorem resolve_eq_ok_iff {r : Registry} {name property field : String} :
    r.resolve name property = .ok field ↔
      ∃ m p, r.entity? name = some m ∧ m.find? property = some p ∧ p.field = field := by
  unfold resolve
  cases r.entity? name with
  | none => simp
  | some m => cases hp : m.find? property <;> simp [hp]

theorem resolve_eq_error_iff {r : Registry} {name property : String} {e : UnknownField} :
    r.resolve name property = .error e ↔
      e = ⟨name, property⟩ ∧ ∀ m, r.entity? name = some m → m.find? property = none := by
  unfold resolve
  cases r.entity? name with
  | none => simp [eq_comm]
  | some m => cases hp : m.find? property <;> simp [hp, eq_comm]

theorem mem_entityNames_iff {r : Registry} {name : String} :
    name ∈ r.entityNames ↔ r.entity? name ≠ none := by
  simp [entityNames, entity?]

theorem pairwise_bytes_entityNames (r : Registry) : (r.entityNames.map bytes).Pairwise (· < ·) := by
  rw [entityNames, List.map_map, List.pairwise_map]
  exact r.inNameOrder.imp fun h => bytes_lt h

/-- A registry says what its history says: about each entity what the last mapping under its name says. -/
structure Reflects (r : Registry) (history : List EntityMapping) : Prop where
  entity : ∀ name m, r.entity? name = some m ↔ m.name = name ∧ IsLast history m
  /-- A property is resolved by the first one with its name. -/
  resolve : ∀ name property field, r.resolve name property = .ok field ↔
    ∃ m p, m.name = name ∧ IsLast history m ∧ p.property = property ∧ m.IsFirst p ∧ p.field = field
  unknown : ∀ name property e, r.resolve name property = .error e ↔
    e = ⟨name, property⟩ ∧ ∀ m, m.name = name → IsLast history m → ∀ p ∈ m.properties, p.property ≠ property
  defaultFields : ∀ m, IsLast history m →
    r.defaultFields m.name = (m.properties.filter (·.isDefault)).map (·.field)
  typeRestriction : ∀ m, IsLast history m → r.typeRestriction m.name = m.workItemTypes
  unregistered : ∀ name, (∀ m ∈ history, m.name ≠ name) → r.defaultFields name = [] ∧ r.typeRestriction name = []
  names : ∀ name, name ∈ r.entityNames ↔ ∃ m ∈ history, m.name = name
  byteOrder : (r.entityNames.map bytes).Pairwise (· < ·)

theorem reflects_ofMappings (history : List EntityMapping) : (ofMappings history).Reflects history where
  entity := fun name m => entity?_ofMappings_eq_some_iff
  resolve := by
    intro name property field
    rw [resolve_eq_ok_iff]
    simp only [entity?_ofMappings_eq_some_iff, EntityMapping.find?_eq_some_iff, and_assoc]
  unknown := by
    intro name property e
    rw [resolve_eq_error_iff]
    simp only [entity?_ofMappings_eq_some_iff, EntityMapping.find?_eq_none_iff, and_imp]
  defaultFields := by
    intro m hm
    unfold Registry.defaultFields
    rw [entity?_ofMappings_eq_some_iff.2 ⟨rfl, hm⟩]
    rfl
  typeRestriction := by
    intro m hm
    unfold Registry.typeRestriction
    rw [entity?_ofMappings_eq_some_iff.2 ⟨rfl, hm⟩]
  unregistered := by
    intro name hname
    unfold Registry.defaultFields Registry.typeRestriction
    rw [entity?_ofMappings_eq_none_iff.2 hname]
    exact ⟨rfl, rfl⟩
  names := by
    intro name
    rw [mem_entityNames_iff, Ne, entity?_ofMappings_eq_none_iff]
    simp
  byteOrder := pairwise_bytes_entityNames _

/-- A registry is determined by the last mapping under each name: it says about an entity what this mapping says,
whatever has been registered under other names, and it makes no difference whether the mappings were registered one by
one or read from a YAML text. -/
theorem reflects_of_registrations (history : List EntityMapping) :
    (history.foldl register empty).Reflects history ∧
    (∀ (name : String) (others : List EntityMapping),
      others.filter (·.name == name) = history.filter (·.name == name) →
      let r := history.foldl register empty
      let r' := others.foldl register empty
      r'.entity? name = r.entity? name ∧ r'.resolve name = r.resolve name ∧
        r'.defaultFields name = r.defaultFields name ∧ r'.typeRestriction name = r.typeRestriction name) ∧
    ∀ text, EntityMapping.listOfYaml? text = some history → ofYaml? text = some (history.foldl register empty) := by
  refine ⟨reflects_ofMappings history, ?_, ?_⟩
  · intro name others h r r'
    have hentity : r'.entity? name = r.entity? name := entity?_eq_of_filter h
    refine ⟨hentity, ?_, ?_, ?_⟩
    · funext property
      unfold resolve
      rw [hentity]
    · unfold defaultFields
      rw [hentity]
    · unfold typeRestriction
      rw [hentity]
  · intro text h
    unfold ofYaml?
    rw [h]
    rfl

/-- The mapping that comes last has replaced the first as a whole, and of its two properties of one name the first
counts. A text may list a mapping twice as well. -/
theorem reflects_of_registrations_replaced :
    let first := EntityMapping.new "Task" |>.property "Title" "Old"
    let last := EntityMapping.new "Task" |>.property "Rank" "First" |>.property "Rank" "Second"
    let history := [first, EntityMapping.new "Bug", last]
    let twice := [EntityMapping.new "Bug", EntityMapping.new "Bug"]
    let text := "- name: Bug\n- name: Bug\n"
    let r := history.foldl register empty
    let r' := [first, last].foldl register empty
    r.entity? "Task" = some last ∧ r.resolve "Task" "Rank" = .ok "First" ∧
      r.resolve "Task" "Title" = .error ⟨"Task", "Title"⟩ ∧ r'.resolve "Task" = r.resolve "Task" ∧
      EntityMapping.listOfYaml? text = some twice ∧ ofYaml? text = some (twice.foldl register empty) := by
  intro first last history twice text r r'
  obtain ⟨hreflects, hothers, -⟩ := reflects_of_registrations history
  have htext : EntityMapping.listOfYaml? text = some twice := by decide +kernel
  have hlast : IsLast history last := ⟨[first, .new "Bug"], [], rfl, by simp⟩
  have hfirst : last.IsFirst ⟨"Rank", "First", true⟩ := ⟨[], [⟨"Rank", "Second", true⟩], rfl, by simp⟩
  have hentity : r.entity? "Task" = some last := (hreflects.entity "Task" last).2 ⟨rfl, hlast⟩
  refine ⟨hentity, (hreflects.resolve "Task" "Rank" "First").2 ⟨last, _, rfl, hlast, rfl, hfirst, rfl⟩,
    (hreflects.unknown "Task" "Title" _).2 ⟨rfl, ?_⟩, (hothers "Task" [first, last] (by decide)).2.1, htext,
    (reflects_of_registrations twice).2.2 text htext⟩
  intro m hname hm
  obtain rfl : last = m := Option.some.inj (hentity.symm.trans ((hreflects.entity "Task" m).2 ⟨hname, hm⟩))
  simp [last, EntityMapping.property, EntityMapping.new]

end Registry

end WorkItemQuery
