/-
What a memo remembers, told by its history. The mapper behind a memo may change at any time between two
questions. Still, a memo answers each question as it did when the question first had a field for an
answer; before that it asks the mapper behind it, once for each question, as it then is. It remembers
as many fields as there are different questions that had one.
-/
import WorkItemQuery.Fields.Mapper
import Mathlib.Data.Finset.Card

namespace WorkItemQuery

namespace FieldMapper

variable {σ : Type}

/-! ## One question -/

variable {mapper : FieldMapper σ} {entity property field : String} {m : Memo σ} {inner : σ}

/-- What is remembered is not asked for. -/
theorem memoized_remembered (h : m.remembered? entity property = some field) :
    mapper.memoized.resolve entity property m = (.ok field, m) := by
  simp only [memoized, h]

/-- A field that is asked for is remembered. -/
theorem memoized_ok (h : m.remembered? entity property = none)
    (hask : mapper.resolve entity property m.inner = (.ok field, inner)) :
    mapper.memoized.resolve entity property m = (.ok field, ⟨inner, ((entity, property), field) :: m.entries⟩) := by
  simp only [memoized, h, hask]

/-- An error is not remembered. -/
theorem memoized_error {e : UnknownField} (h : m.remembered? entity property = none)
    (hask : mapper.resolve entity property m.inner = (.error e, inner)) :
    mapper.memoized.resolve entity property m = (.error e, ⟨inner, m.entries⟩) := by
  simp only [memoized, h, hask]

/-- What is not remembered is asked for, and answered as the mapper behind the memo answers it. -/
theorem memoized_asked (h : m.remembered? entity property = none) :
    let asked := mapper.memoized.resolve entity property m
    (asked.1, asked.2.inner) = mapper.resolve entity property m.inner := by
  rcases hask : mapper.resolve entity property m.inner with ⟨err | field, inner⟩
  · rw [memoized_error h hask]
  · rw [memoized_ok h hask]

end FieldMapper

namespace Memo

variable {σ : Type}

theorem remembered?_isSome_iff (m : Memo σ) (entity property : String) :
    (m.remembered? entity property).isSome = true ↔ (entity, property) ∈ m.entries.map Prod.fst := by
  unfold remembered?
  induction m.entries with
  | nil => simp
  | cons entry rest ih =>
    obtain ⟨key, field⟩ := entry
    by_cases h : (entity, property) = key
    · simp [h]
    · have hkey : ((entity, property) == key) = false := by simpa using h
      rw [List.lookup_cons, hkey, ih, List.map_cons, List.mem_cons]
      simp [h]

/-! ## Histories -/

/-- What happens to a memo. -/
inductive Event (σ : Type) where
  | ask (entity property : String)
  /-- The mapper behind the memo changes, as a registry does when an entity is registered. -/
  | change (f : σ → σ)

/-- A question with its answer. -/
structure Answered where
  entity : String
  property : String
  answer : Except UnknownField String

/-- What was asked, if there is a field for it. -/
def Answered.resolved? (a : Answered) : Option (String × String) :=
  a.answer.toOption.map fun _ => (a.entity, a.property)

/-- The field that a question was first answered with. -/
def firstField? (history : List Answered) (entity property : String) : Option String :=
  history.findSome? fun a => if (a.entity, a.property) = (entity, property) then a.answer.toOption else none

/-- The different questions that had a field for an answer. -/
def resolved (history : List Answered) : Finset (String × String) :=
  (history.filterMap Answered.resolved?).toFinset

/-- A memo over a mapper that counts its calls, and the questions to the memo so far, the first one first. -/
structure Run (σ : Type) where
  memo : Memo (Counted σ)
  history : List Answered

namespace Run

/-- What an event makes of a run. -/
def next (mapper : FieldMapper σ) (run : Run σ) : Event σ → Run σ
  | .ask entity property =>
    let (answer, memo) := mapper.counted.memoized.resolve entity property run.memo
    ⟨memo, run.history ++ [⟨entity, property, answer⟩]⟩
  | .change f => { run with memo.inner.inner := f run.memo.inner.inner }

/-- The run of a new memo through some events. -/
def through (mapper : FieldMapper σ) (inner : σ) (events : List (Event σ)) : Run σ :=
  events.foldl (next mapper) ⟨Memo.new ⟨inner, 0⟩, []⟩

end Run

/-! ## What a memo remembers -/

theorem firstField?_append (history : List Answered) (a : Answered) (entity property : String) :
    firstField? (history ++ [a]) entity property = (firstField? history entity property).or
      (if (a.entity, a.property) = (entity, property) then a.answer.toOption else none) := by
  unfold firstField?
  rw [List.findSome?_append, List.findSome?_singleton]

theorem mem_resolved_iff (history : List Answered) (entity property : String) :
    (entity, property) ∈ resolved history ↔ (firstField? history entity property).isSome = true := by
  unfold resolved firstField?
  rw [List.mem_toFinset, List.mem_filterMap, List.findSome?_isSome_iff]
  refine exists_congr fun a => and_congr_right fun _ => ?_
  unfold Answered.resolved?
  cases a.answer <;> simp [Except.toOption]

/-- A memo remembers the first field of each question, and each question once. -/
structure Recalls (m : Memo σ) (history : List Answered) : Prop where
  remembered : ∀ entity property, m.remembered? entity property = firstField? history entity property
  nodup : (m.entries.map Prod.fst).Nodup

namespace Recalls

theorem new (inner : σ) : Recalls (Memo.new inner) [] := ⟨fun _ _ => rfl, List.nodup_nil⟩

/-- One question: an answer that is remembered is not the first, and one that is not becomes the first. -/
theorem ask {m : Memo σ} {history : List Answered} (h : m.Recalls history) (mapper : FieldMapper σ)
    (entity property : String) :
    let asked := mapper.memoized.resolve entity property m
    asked.2.Recalls (history ++ [⟨entity, property, asked.1⟩]) := by
  dsimp only
  cases hm : m.remembered? entity property with
  | some field =>
    -- the history has an earlier answer to this question, which still comes first
    rw [FieldMapper.memoized_remembered hm]
    refine ⟨fun e p => ?_, h.nodup⟩
    rw [firstField?_append, ← h.remembered]
    split
    · rename_i hkey
      cases hkey
      rw [hm]
      rfl
    · rw [Option.or_none]
  | none =>
    rcases hask : mapper.resolve entity property m.inner with ⟨err | field, inner⟩
    · rw [FieldMapper.memoized_error hm hask]
      refine ⟨fun e p => ?_, h.nodup⟩
      rw [firstField?_append, ← h.remembered]
      simp [Except.toOption, remembered?]
    · rw [FieldMapper.memoized_ok hm hask]
      have hnew : (entity, property) ∉ m.entries.map Prod.fst := by
        rw [← remembered?_isSome_iff, hm]
        exact Bool.false_ne_true
      refine ⟨fun e p => ?_, List.nodup_cons.2 ⟨hnew, h.nodup⟩⟩
      rw [firstField?_append, ← h.remembered, remembered?, List.lookup_cons]
      split
      · rename_i hkey
        cases eq_of_beq hkey
        rw [hm, if_pos rfl]
        rfl
      · rename_i hkey
        rw [if_neg fun heq => by simp [heq] at hkey, Option.or_none]
        rfl

theorem size_eq {m : Memo σ} {history : List Answered} (h : m.Recalls history) :
    m.size = (resolved history).card := by
  have hkeys : (m.entries.map Prod.fst).toFinset = resolved history := by
    ext ⟨entity, property⟩
    rw [List.mem_toFinset, ← remembered?_isSome_iff, h.remembered, mem_resolved_iff]
  rw [← hkeys, List.toFinset_card_of_nodup h.nodup, List.length_map]
  rfl

end Recalls

/-- One event: a change of the mapper behind a memo changes nothing that the memo remembers. -/
theorem Run.recalls_next (mapper : FieldMapper σ) {run : Run σ} (h : run.memo.Recalls run.history) (event : Event σ) :
    (run.next mapper event).memo.Recalls (run.next mapper event).history := by
  cases event with
  | ask entity property => exact h.ask mapper.counted entity property
  | change f => exact ⟨h.remembered, h.nodup⟩

/-- All events. -/
theorem Run.recalls_through (mapper : FieldMapper σ) (inner : σ) (events : List (Event σ)) :
    (through mapper inner events).memo.Recalls (through mapper inner events).history := by
  suffices h : ∀ run : Run σ, run.memo.Recalls run.history →
      (events.foldl (next mapper) run).memo.Recalls (events.foldl (next mapper) run).history by
    exact h _ (.new _)
  induction events with
  | nil => exact fun _ h => h
  | cons event events ih => exact fun run h => ih _ (recalls_next mapper h event)

/-- After any events a memo answers a question with the first field that it was answered with, without a call of
the mapper behind it. If there is none it calls that mapper once, and the answer is the mapper's. -/
theorem resolve_of_history (mapper : FieldMapper σ) (inner : σ) (events : List (Event σ)) (entity property : String) :
    let run := Run.through mapper inner events
    let asked := mapper.counted.memoized.resolve entity property run.memo
    run.memo.size = (resolved run.history).card ∧
      match firstField? run.history entity property with
      | some field => asked.1 = .ok field ∧ asked.2 = run.memo
      | none => (asked.1, asked.2.inner.inner) = mapper.resolve entity property run.memo.inner.inner ∧
          asked.2.inner.calls = run.memo.inner.calls + 1 := by
  intro run asked
  have hrecalls : run.memo.Recalls run.history := Run.recalls_through mapper inner events
  refine ⟨hrecalls.size_eq, ?_⟩
  rw [← hrecalls.remembered entity property]
  cases hm : run.memo.remembered? entity property with
  | some field =>
    have hasked : asked = (.ok field, run.memo) := FieldMapper.memoized_remembered hm
    rw [hasked]
    exact ⟨rfl, rfl⟩
  | none =>
    have hasked : (asked.1, asked.2.inner) = mapper.counted.resolve entity property run.memo.inner :=
      FieldMapper.memoized_asked hm
    obtain ⟨hanswer, hinner⟩ := Prod.ext_iff.1 hasked
    exact ⟨Prod.ext hanswer (congrArg Counted.inner hinner), congrArg Counted.calls hinner⟩

/-- A field that is remembered outlives a change of the registry; an error does not. -/
example :
    let titled (entity field : String) := EntityMapping.new entity |>.property "Title" field
    let run := Run.through .registry (Registry.ofMappings [titled "Task" "Old"])
      [.ask "Task" "Title", .ask "Bug" "Title",
        .change fun r => (r.register (titled "Task" "New")).register (titled "Bug" "New"),
        .ask "Task" "Title", .ask "Bug" "Title"]
    run.history.map (·.answer) = [.ok "Old", .error ⟨"Bug", "Title"⟩, .ok "Old", .ok "New"] ∧ run.memo.size = 2 ∧
      run.memo.inner.calls = 3 := by
  decide +kernel

end Memo

end WorkItemQuery
