/-
What the ways to combine rules give: the result of a rule made of others in terms of their results.
Misses play no part in it, so every later proof about reading goes through these equations.
-/
import WorkItemQuery.Pipeline.Grammar

namespace WorkItemQuery.Pipeline.Rule

variable {α β : Type}

@[simp] theorem result_pure (a : α) (cs : List Char) : ((pure a : Rule α) cs).result = some (a, cs) := rfl

@[simp] theorem result_bind (p : Rule α) (f : α → Rule β) (cs : List Char) :
    ((p >>= f) cs).result = (p cs).result.bind fun r => (f r.1 r.2).result := by
  show (andThen p f cs).result = _
  unfold andThen
  rcases p cs with ⟨miss, _ | ⟨a, rest⟩⟩ <;> rfl

theorem bind_eq_some {p : Rule α} {f : α → Rule β} {cs rest : List Char} {b : β} :
    ((p >>= f) cs).result = some (b, rest) ↔
      ∃ a mid, (p cs).result = some (a, mid) ∧ (f a mid).result = some (b, rest) := by
  rw [result_bind, Option.bind_eq_some_iff, Prod.exists]

@[simp] theorem result_map (f : α → β) (p : Rule α) (cs : List Char) :
    ((f <$> p) cs).result = (p cs).result.map fun r => (f r.1, r.2) := by
  show ((p >>= fun a => pure (f a)) cs).result = _
  rw [result_bind]
  cases (p cs).result <;> rfl

@[simp] theorem result_orElse (p q : Rule α) (cs : List Char) :
    ((p <|> q) cs).result = ((p cs).result <|> (q cs).result) := by
  show (orElse p (fun _ => q) cs).result = _
  unfold orElse
  rcases p cs with ⟨miss, _ | r⟩ <;> rfl

@[simp] theorem result_named (p : Rule α) (cs : List Char) : (named p cs).result = (p cs).result := by
  unfold named
  rcases p cs with ⟨miss, _ | r⟩ <;> rfl

@[simp] theorem result_ofScan (scan : List Char → Option (α × List Char)) (cs : List Char) :
    (ofScan scan cs).result = scan cs := rfl

@[simp] theorem result_lexeme (scan : List Char → Option (α × List Char)) (cs : List Char) :
    (lexeme scan cs).result = scan cs := by
  unfold lexeme; rw [result_named, result_ofScan]

@[simp] theorem result_optional (p : Rule α) (cs : List Char) :
    (optional p cs).result = some (match (p cs).result with
      | some r => (some r.1, r.2)
      | none => (none, cs)) := by
  unfold optional
  rw [result_orElse, result_map, result_pure]
  cases (p cs).result <;> rfl

/-! ## Repetition -/

theorem result_many_none {p : Rule α} {cs : List Char} (h : (p cs).result = none) :
    (many p cs).result = some ([], cs) := by
  rw [many]
  split
  · rfl
  · rename_i hp; rw [hp] at h; cases h

theorem result_many_some {p : Rule α} {cs rest : List Char} {a : α} (h : (p cs).result = some (a, rest))
    (hlt : rest.length < cs.length) :
    (many p cs).result = (many p rest).result.map fun r => (a :: r.1, r.2) := by
  rw [many]
  split
  · rename_i hp; rw [hp] at h; cases h
  · rename_i hp
    rw [hp] at h; cases h
    rw [if_pos hlt]

end WorkItemQuery.Pipeline.Rule
